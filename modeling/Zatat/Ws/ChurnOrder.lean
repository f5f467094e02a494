import Zatat.Ws.ChurnInvariant

/-! # Receivers see the changes of a channel in order

The ledger of every channel holds in every state that a run of joins and leaves
reaches, as long as no member is added while a removal from the same channel is
still to be announced. A join that does not wait makes receivers see the
channel occupied twice in a row, so the runs whose histories stay in order are
exactly the runs that keep to this condition.
-/

namespace Zatat.Churn

open Function Transition Alternation Server ChannelKind Incarnations Channel

namespace State

@[simp] theorem slots_setSlot (σ : State) (a c a' c' : String) (inc : Incarnations) :
    (σ.setSlot a c inc).slots a' c' = if a' = a ∧ c' = c then inc else σ.slots a' c' := by
  rw [setSlot]
  dsimp only
  by_cases ha : a' = a
  · subst ha
    rw [update_self, update_apply]
    simp
  · rw [update_of_ne ha, if_neg (fun h => ha h.1)]

theorem progress_setProgress (σ : State) (s s' : String) (p : Progress) :
    (σ.setProgress s p).progress s' = if s' = s then p else σ.progress s' :=
  update_apply ..

theorem leaving_setProgress (σ : State) (s : String) (p : Progress) (a c : String) :
    (σ.setProgress s p).leaving a c = update (σ.leaving a c) s (leavingOf a c p) := by
  funext s'
  rw [leaving, progress_setProgress, update_apply]
  split <;> rfl

end State

structure Inv (σ : State) : Prop where
  alone : σ.server.Alone
  found : ∀ s app c arc, σ.progress s = .found app c arc → arc < (σ.slots app.id c).fresh
  ledger : ∀ a c, Ledger (σ.slots a c) c (σ.leaving a c) (σ.server.memberMessages a c)
    (σ.server.occupancyReports a c)

theorem inv_new (nodeId : String) (config : String → Option Application) :
    Inv (State.new nodeId config) where
  alone := ⟨rfl, rfl, rfl⟩
  found s app c arc h := by cases h
  ledger _ c := Ledger.new c

variable {σ σ' : State} {a c s : String} {inc : Incarnations} {app : Application} {now : Instant}
  {pm : PresenceMember} {arc : Nat} {label : Label}

theorem Inv.inOrder (h : Inv σ) : InOrder σ where
  messages a c u := ((h.ledger a c).messageState u).alternates
  reports a c := (h.ledger a c).reportState.alternates
  lastMessage hQuiet a c u := by
    rw [((h.ledger a c).messageState u).current, or_iff_left]
    rintro ⟨s, i, o, hLeaving, -⟩
    rw [State.leaving, hQuiet s] at hLeaving
    cases hLeaving
  lastReport hQuiet a c := by
    rw [(h.ledger a c).reportState.current, or_iff_left]
    rintro ⟨s, i, o, hLeaving, -⟩
    rw [State.leaving, hQuiet s] at hLeaving
    cases hLeaving

theorem Inv.setSlot (h : Inv σ) (hFresh : (σ.slots a c).fresh ≤ inc.fresh)
    (hLedger : Ledger inc c (σ.leaving a c) (σ.server.memberMessages a c)
      (σ.server.occupancyReports a c)) : Inv (σ.setSlot a c inc) where
  alone := h.alone
  found s app c' arc hFound := by
    have hLt := h.found s app c' arc hFound
    rw [State.slots_setSlot]
    split
    · rename_i hKey
      rw [hKey.1, hKey.2] at hLt
      omega
    · exact hLt
  ledger a' c' := by
    rw [State.slots_setSlot]
    split
    · rename_i hKey
      rw [hKey.1, hKey.2]
      exact hLedger
    · exact h.ledger a' c'

theorem Inv.setProgress (h : Inv σ) {p : Progress}
    (hOld : ∀ a c, leavingOf a c (σ.progress s) = none) (hNew : ∀ a c, leavingOf a c p = none)
    (hFound : ∀ app c arc, p = .found app c arc → arc < (σ.slots app.id c).fresh) :
    Inv (σ.setProgress s p) where
  alone := h.alone
  found s' app c arc hProgress := by
    rw [State.progress_setProgress] at hProgress
    split at hProgress
    · exact hFound app c arc hProgress
    · exact h.found s' app c arc hProgress
  ledger a c := by
    have hLeaving : (σ.setProgress s p).leaving a c = σ.leaving a c := by
      rw [State.leaving_setProgress, hNew, ← hOld a c]
      exact update_eq_self s _
    rw [hLeaving]
    exact h.ledger a c

theorem fresh_removeUnused (inc : Incarnations) (now : Instant) :
    (inc.removeUnused now).fresh = inc.fresh := by
  rw [removeUnused]
  split
  · split <;> rfl
  · rfl

theorem fresh_entryOrNew (inc : Incarnations) (app : Application) (c : String) :
    inc.fresh ≤ (inc.entryOrNew app c).2.fresh := by
  rw [entryOrNew]
  split
  · exact le_rfl
  · exact Nat.le_succ _

theorem Inv.removeIf (h : Inv σ) (now : Instant) (a c : String) : Inv (removeIf σ now a c) :=
  h.setSlot (by rw [fresh_removeUnused]) ((h.ledger a c).removeUnused now)

theorem Inv.publish (h : Inv σ) (now : Instant) (app : Application) (payload : EventPayload) :
    Inv (publish σ now app payload) :=
  h.setSlot (fresh_entryOrNew _ app payload.channel)
    (((h.ledger app.id payload.channel).entryOrNew app).setCachedPayload _ now payload)

theorem Inv.find (h : Inv σ) (hIdle : σ.progress s = .idle) : Inv (find σ app s c) := by
  rw [Churn.find]
  cases hCurrent : (σ.slots app.id c).current with
  | none => exact h
  | some arc =>
    refine h.setProgress (fun _ _ => by rw [hIdle]; rfl) (fun _ _ => rfl) ?_
    intro app' c' arc' hEq
    cases hEq
    exact (h.ledger app.id c).currentAllocated arc hCurrent

theorem Inv.setServer (h : Inv σ) {srv : Server} {τ : State} (hKnown : srv.known = σ.server.known)
    (hServer : τ.server = srv)
    (hSlots : ∀ a' c', τ.slots a' c' = if a' = a ∧ c' = c then inc else σ.slots a' c')
    (hOther : ∀ a' c', ¬ (a' = a ∧ c' = c) → τ.leaving a' c' = σ.leaving a' c' ∧
      srv.memberMessages a' c' = σ.server.memberMessages a' c' ∧
        srv.occupancyReports a' c' = σ.server.occupancyReports a' c')
    (hFound : ∀ s app c' arc, τ.progress s = .found app c' arc → σ.progress s = .found app c' arc)
    (hFresh : (σ.slots a c).fresh ≤ inc.fresh)
    (hLedger : Ledger inc c (τ.leaving a c) (srv.memberMessages a c) (srv.occupancyReports a c)) :
    Inv τ where
  alone := hServer ▸ h.alone.of_known hKnown
  found s app c' arc hProgress := by
    have hLt := h.found s app c' arc (hFound s app c' arc hProgress)
    rw [hSlots]
    split
    · rename_i hKey
      rw [hKey.1, hKey.2] at hLt
      omega
    · exact hLt
  ledger a' c' := by
    rw [hSlots, hServer]
    by_cases hKey : a' = a ∧ c' = c
    · obtain ⟨rfl, rfl⟩ := hKey
      rw [if_pos ⟨rfl, rfl⟩]
      exact hLedger
    · obtain ⟨hLeaving', hMessages, hReports⟩ := hOther a' c' hKey
      rw [if_neg hKey, hLeaving', hMessages, hReports]
      exact h.ledger a' c'

theorem presenceFor_isSome (channel : String) (pm : PresenceMember) :
    (presenceFor channel pm).isSome = (fromName channel).isPresence := by
  rw [presenceFor]
  cases (fromName channel).isPresence <;> rfl

theorem join_eq_some (h : join σ now app s c pm = some σ') :
    ∃ arc inc, (σ.slots app.id c).entryOrNew app c = (arc, inc) ∧ inc.holderAt arc = none ∧
      (((σ.server.admitJoin now app c (presenceFor c pm) (inc.channelAt arc)).admitted = true ∧
          ∃ remotelyPresent, σ' = { σ.setSlot app.id c (inc.setObject arc
            ⟨((inc.channelAt arc).subscribe s (presenceFor c pm)).2, none⟩) with
            server := σ.server.onSubscribed now app c s (presenceFor c pm)
              (σ.server.occupiedOnPeers now app c (fromName c)) remotelyPresent
              ((inc.channelAt arc).subscribe s (presenceFor c pm)).2
              ((inc.channelAt arc).subscribe s (presenceFor c pm)).1 }) ∨
        ((σ.server.admitJoin now app c (presenceFor c pm) (inc.channelAt arc)).admitted = false ∧
          σ' = (σ.setSlot app.id c inc).setProgress s (.rejected app c))) := by
  rw [join] at h
  dsimp only at h
  split at h
  · rename_i hFree
    refine ⟨_, _, rfl, hFree, ?_⟩
    split at h
    · rename_i hAdmitted
      exact Or.inl ⟨hAdmitted, _, (Option.some.inj h).symm⟩
    · rename_i hAdmitted
      exact Or.inr ⟨Bool.not_eq_true _ ▸ hAdmitted, (Option.some.inj h).symm⟩
  · cases h

theorem Inv.join (h : Inv σ) (hIdle : σ.progress s = .idle)
    (hAnnounced : LeavesAnnounced σ (.join now app s c pm))
    (hJoin : Churn.join σ now app s c pm = some σ') : Inv σ' := by
  obtain ⟨arc, inc, hEntry, hFree, hCases⟩ := join_eq_some hJoin
  have hLedger : Ledger inc c (σ.leaving app.id c) (σ.server.memberMessages app.id c)
      (σ.server.occupancyReports app.id c) := by
    have hCreated := (h.ledger app.id c).entryOrNew app
    rwa [hEntry] at hCreated
  have hFresh : (σ.slots app.id c).fresh ≤ inc.fresh := by
    have hLe := fresh_entryOrNew (σ.slots app.id c) app c
    rwa [hEntry] at hLe
  have hCurrent : inc.current = some arc := by
    have hSome := entryOrNew_current (σ.slots app.id c) app c
    rwa [hEntry] at hSome
  rcases hCases with ⟨hAdmitted, remotelyPresent, rfl⟩ | ⟨-, rfl⟩
  · by_cases hMem : s ∈ (inc.channelAt arc).members
    · rw [subscribe_of_mem hMem, onSubscribed, if_neg Bool.false_ne_true]
      have hSame := inc.setObject_self arc
      rw [hFree] at hSame
      rw [hSame]
      exact h.setSlot hFresh hLedger
    · have hQuiet := hAnnounced (by rw [AddsMember, hEntry]; exact ⟨hAdmitted, hMem⟩)
      have hNew := (subscribe_wasNew (inc.channelAt arc) s (presenceFor c pm)).mpr hMem
      have hScaling := h.alone.scalingEnabled
      have hAlone := h.alone.occupiedOnPeers now app c (fromName c)
      refine h.setServer (known_onSubscribed ..) rfl (State.slots_setSlot σ app.id c · · _)
        ?_ (fun _ _ _ _ hProgress => hProgress) hFresh ?_
      · intro a' c' hKey
        refine ⟨rfl, ?_, ?_⟩
        · funext u
          rw [memberMessages_onSubscribed _ hScaling, if_neg, List.append_nil]
          exact fun hAll => hKey ⟨hAll.2.2.2.1.symm, hAll.2.2.2.2.symm⟩
        · rw [occupancyReports_onSubscribed, if_neg, List.append_nil]
          exact fun hAll => hKey ⟨hAll.2.2.2.1.symm, hAll.2.2.2.2.symm⟩
      · have hLedger' := hLedger.subscribe hCurrent hFree hQuiet hMem (presenceFor_isSome c pm)
        change Ledger _ c (σ.leaving app.id c) _ _
        convert hLedger' using 2
        · rw [memberMessages_onSubscribed _ hScaling]
          simp [hNew]
        · rw [occupancyReports_onSubscribed, hAlone]
          simp [hNew]
  · refine (h.setSlot hFresh hLedger).setProgress (fun _ _ => ?_) (fun _ _ => rfl) ?_
    · change leavingOf _ _ (σ.progress s) = none
      rw [hIdle]
      rfl
    · intro app' c' arc' hEq
      cases hEq

/-- A member added before a removal is announced: the channel is reported as
occupied a second time. -/
theorem Inv.not_inOrder_join (h : Inv σ) (hEarly : ¬ LeavesAnnounced σ (.join now app s c pm))
    (hJoin : Churn.join σ now app s c pm = some σ') : ¬ InOrder σ' := by
  rw [LeavesAnnounced, Classical.not_imp] at hEarly
  obtain ⟨⟨hAdmitted, hMem⟩, hPending⟩ := hEarly
  push Not at hPending
  obtain ⟨s', i, o, hLeaving, hNot⟩ := hPending
  have hMember : o.wasMember = true := Bool.ne_false_iff.mp hNot
  obtain ⟨arc, inc, hEntry, hFree, hCases⟩ := join_eq_some hJoin
  rw [hEntry] at hAdmitted hMem
  have hLedger : Ledger inc c (σ.leaving app.id c) (σ.server.memberMessages app.id c)
      (σ.server.occupancyReports app.id c) := by
    have hCreated := (h.ledger app.id c).entryOrNew app
    rwa [hEntry] at hCreated
  have hCurrent : inc.current = some arc := by
    have hSome := entryOrNew_current (σ.slots app.id c) app c
    rwa [hEntry] at hSome
  rcases hCases with ⟨-, remotelyPresent, rfl⟩ | ⟨hRejected, -⟩
  · have hNe : i ≠ arc := hLedger.ne_of_holder hLeaving hFree
    have hEmpty := hLedger.superseded s' i o arc hLeaving hMember hCurrent hNe.symm
    have hZero := hLedger.count_detached hLeaving hMember
      (by rw [hCurrent]; exact fun hEq => hNe (Option.some.inj hEq).symm)
    have hTrue := hLedger.reportState.current.mpr (Or.inr ⟨s', i, o, hLeaving, hMember, hZero⟩)
    have hNew := (subscribe_wasNew (inc.channelAt arc) s (presenceFor c pm)).mpr hMem
    have hFirst : ((inc.channelAt arc).subscribe s (presenceFor c pm)).1.memberCount = 1 := by
      rw [subscribe_memberCount, subscribe_len hMem, Channel.isEmpty_iff_len.mp hEmpty]
    intro hOrder
    have hAlternates := hOrder.reports app.id c
    dsimp only at hAlternates
    rw [occupancyReports_onSubscribed, h.alone.occupiedOnPeers now app c (fromName c),
      if_pos ⟨hNew, hFirst, rfl, rfl, rfl⟩, alternates_concat] at hAlternates
    exact hAlternates.2 hTrue
  · rw [hAdmitted] at hRejected
    cases hRejected

theorem leavingOf_removed (app : Application) (c : String) (arc : Nat) (o : UnsubscribeOutcome) :
    leavingOf app.id c (.removed app c arc o) = some (arc, o) := if_pos ⟨rfl, rfl⟩

theorem leavingOf_removed_of_ne {a' c' : String} (hKey : ¬ (a' = app.id ∧ c' = c)) (arc : Nat)
    (o : UnsubscribeOutcome) : leavingOf a' c' (.removed app c arc o) = none :=
  if_neg fun hEq => hKey ⟨hEq.1.symm, hEq.2.symm⟩

theorem Inv.remove (h : Inv σ) (hFound : σ.progress s = .found app c arc)
    (hRemove : Churn.remove σ app s c arc = some σ') : Inv σ' := by
  rw [Churn.remove] at hRemove
  dsimp only at hRemove
  split at hRemove <;> cases hRemove
  rename_i hFree
  have hIdle (a' c' : String) : σ.leaving a' c' s = none := by
    rw [State.leaving, hFound]
    rfl
  have hLedger := (h.ledger app.id c).unsubscribe (h.found s app c arc hFound) hFree
    (hIdle app.id c)
  refine h.setServer rfl rfl (State.slots_setSlot σ app.id c · · _) ?_ ?_ le_rfl ?_
  · intro a' c' hKey
    refine ⟨?_, rfl, rfl⟩
    rw [State.leaving_setProgress, leavingOf_removed_of_ne hKey, ← hIdle a' c']
    exact update_eq_self s _
  · intro s' app' c' arc' hProgress
    rw [State.progress_setProgress] at hProgress
    split at hProgress
    · cases hProgress
    · exact hProgress
  · rw [State.leaving_setProgress, leavingOf_removed]
    exact hLedger

theorem Inv.announce (h : Inv σ) {o : UnsubscribeOutcome}
    (hRemoved : σ.progress s = .removed app c arc o) :
    Inv (Churn.announce σ now app s c arc o) := by
  have hLeaving : σ.leaving app.id c s = some (arc, o) := by
    rw [State.leaving, hRemoved, leavingOf_removed]
  have hLedger := (h.ledger app.id c).announce hLeaving
  have hScaling := h.alone.scalingEnabled
  have hAlone := h.alone.occupiedOnPeers now app c (fromName c)
  -- only presence channels remove a user, so the kind test of the source adds nothing
  have hKind (u : String) (hUser : o.userRemoved = some u) :
      (fromName c).isPresence = true :=
    ((h.ledger app.id c).gone s arc o u hLeaving hUser).2.1
  refine h.setServer (known_onUnsubscribed ..) rfl (State.slots_setSlot σ app.id c · · _)
    ?_ ?_ le_rfl ?_
  · intro a' c' hKey
    refine ⟨?_, ?_, ?_⟩
    · change (σ.setProgress s (.announced app c)).leaving a' c' = _
      have hNone : leavingOf a' c' (.announced app c) = σ.leaving a' c' s := by
        rw [State.leaving, hRemoved, leavingOf_removed_of_ne hKey]
        rfl
      rw [State.leaving_setProgress, hNone]
      exact update_eq_self s _
    · funext u
      rw [memberMessages_onUnsubscribed _ hScaling, if_neg, List.append_nil]
      exact fun hAll => hKey ⟨hAll.2.2.2.1.symm, hAll.2.2.2.2.symm⟩
    · rw [occupancyReports_onUnsubscribed, if_neg, List.append_nil]
      exact fun hAll => hKey ⟨hAll.2.2.2.1.symm, hAll.2.2.2.2.symm⟩
  · intro s' app' c' arc' hProgress
    change (σ.setProgress s (.announced app c)).progress s' = _ at hProgress
    rw [State.progress_setProgress] at hProgress
    split at hProgress
    · cases hProgress
    · exact hProgress
  · change Ledger _ c ((σ.setProgress s (.announced app c)).leaving app.id c) _ _
    have hNone : leavingOf app.id c (.announced app c) = none := rfl
    rw [State.leaving_setProgress, hNone]
    convert hLedger using 2
    · rename_i u
      rw [memberMessages_onUnsubscribed _ hScaling]
      congr 1
      apply if_congr _ rfl rfl
      simp only [and_true]
      exact and_congr_right fun _ => and_iff_right_of_imp (hKind u)
    · rw [occupancyReports_onUnsubscribed, hAlone]
      simp

theorem inv_step (h : Inv σ) (hAnnounced : LeavesAnnounced σ label)
    (hStep : step σ label = some σ') : Inv σ' := by
  cases label with
  | join now app s c pm =>
    simp only [step] at hStep
    split at hStep
    · rename_i hIdle
      exact h.join hIdle hAnnounced hStep
    · cases hStep
  | removeRejected now s =>
    simp only [step] at hStep
    split at hStep <;> cases hStep
    rename_i app c hRejected
    refine (h.removeIf now app.id c).setProgress (fun _ _ => ?_) (fun _ _ => rfl) ?_
    · change leavingOf _ _ (σ.progress s) = none
      rw [hRejected]
      rfl
    · intro app' c' arc hEq
      cases hEq
  | find app s c =>
    simp only [step] at hStep
    split at hStep <;> cases hStep
    rename_i hIdle
    exact h.find hIdle
  | remove s =>
    simp only [step] at hStep
    split at hStep
    · rename_i app c arc hFound
      exact h.remove hFound hStep
    · cases hStep
  | announce now s =>
    simp only [step] at hStep
    split at hStep <;> cases hStep
    rename_i app c arc o hRemoved
    exact h.announce hRemoved
  | removeUnused now s =>
    simp only [step] at hStep
    split at hStep <;> cases hStep
    rename_i app c hDone
    refine (h.removeIf now app.id c).setProgress (fun _ _ => ?_) (fun _ _ => rfl) ?_
    · change leavingOf _ _ (σ.progress s) = none
      rw [hDone]
      rfl
    · intro app' c' arc hEq
      cases hEq
  | gcEmptyCacheChannel now a c =>
    simp only [step] at hStep
    split at hStep <;> cases hStep
    exact h.removeIf now a c
  | publish now app payload =>
    simp only [step] at hStep
    split at hStep <;> cases hStep
    exact h.publish now app payload

theorem not_inOrder_step (h : Inv σ) (hEarly : ¬ LeavesAnnounced σ label)
    (hStep : step σ label = some σ') : ¬ InOrder σ' := by
  cases label with
  | join now app s c pm =>
    simp only [step] at hStep
    split at hStep
    · exact h.not_inOrder_join hEarly hStep
    · cases hStep
  | _ => exact absurd trivial hEarly

/-- The histories of a run stay in order exactly when each of its joins waits for
the removals from its channel to be announced. -/
theorem inOrder_iff_leavesAnnounced (nodeId : String) (config : String → Option Application)
    (run : List Label) : Always step InOrder (State.new nodeId config) run ↔
      EachStep step LeavesAnnounced (State.new nodeId config) run :=
  always_iff_eachStep (fun _ h => h.inOrder) (fun _ _ _ h hC hStep => inv_step h hC hStep)
    (fun _ _ _ h hC hStep => not_inOrder_step h hC hStep) (inv_new nodeId config) run

/-- Two members leave, the first one's last step removes the object the second
one still holds, and a third connection of the second user joins a new object. -/
def overtakenRun : List Label :=
  [.join 0 exampleApp "1.1" "presence-room" ⟨"alice", none⟩,
    .join 0 exampleApp "1.2" "presence-room" ⟨"bob", none⟩,
    .find exampleApp "1.1" "presence-room", .remove "1.1", .announce 0 "1.1",
    .find exampleApp "1.2" "presence-room", .remove "1.2",
    .removeUnused 0 "1.1",
    .join 0 exampleApp "1.3" "presence-room" ⟨"bob", none⟩,
    .announce 0 "1.2", .removeUnused 0 "1.2"]

theorem overtakenRun_result :
    (exec step (State.new "node-a" fun _ => some exampleApp) overtakenRun).map (fun σ =>
      (σ.server.memberMessages "app" "presence-room" "bob",
        σ.server.occupancyReports "app" "presence-room",
        (σ.slots "app" "presence-room").current,
        ((σ.slots "app" "presence-room").channelAt 1).hasUserId "bob")) =
      some ([true, true, false], [true, true, false], some 1, true) := by decide

theorem overtakenRun_out_of_order :
    ∃ σ, exec step (State.new "node-a" fun _ => some exampleApp) overtakenRun = some σ ∧
      σ.server.memberMessages "app" "presence-room" "bob" = [true, true, false] ∧
      σ.server.occupancyReports "app" "presence-room" = [true, true, false] ∧
      (∃ arc, (σ.slots "app" "presence-room").current = some arc ∧
        ((σ.slots "app" "presence-room").channelAt arc).hasUserId "bob" = true) ∧ ¬ InOrder σ := by
  obtain ⟨σ, hRun, hResult⟩ := Option.map_eq_some_iff.mp overtakenRun_result
  simp only [Prod.mk.injEq] at hResult
  obtain ⟨hMessages, hReports, hCurrent, hBob⟩ := hResult
  refine ⟨σ, hRun, hMessages, hReports, ⟨1, hCurrent, hBob⟩, ?_⟩
  intro hOrder
  have hAlternates := hOrder.reports "app" "presence-room"
  rw [hReports] at hAlternates
  exact absurd hAlternates (by decide)

end Zatat.Churn
