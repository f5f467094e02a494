import Mathlib.Data.Finset.Card
import Zatat.Channels.RefcountRuns
import Zatat.Ws.Queueing

/-! # The cap on the users of a presence channel

Joins and leaves of one presence channel on one node, with the rosters of the
peers replaced at will in between. The users the node knows of are those of its
own members and those of the rosters within their time to live.
-/

namespace Zatat.Capacity

open FiniteMap Transition Finset

structure Room where
  app : Application
  channel : String
  presence : (ChannelKind.fromName channel).isPresence = true

inductive Label where
  | join (now : Instant) (socketId : String) (pm : PresenceMember)
  | leave (now : Instant) (socketId : String)
  /-- What the peers are known to list becomes another. -/
  | peers (cache : PresenceCache)

section

variable (room : Room)

def answer (node : Node) (now : Instant) (socketId : String) (pm : PresenceMember) :
    Frame × Node :=
  node.answerSubscribe now room.app socketId room.channel (some pm)

def step (node : Node) : Label → Option Node
  | .join now socketId pm => some (answer room node now socketId pm).2
  | .leave now socketId => some (node.leaveChannel now room.app socketId room.channel)
  | .peers cache => some (node.setServer (node.withPresenceCache cache))

def localUsers (node : Node) : Finset String :=
  match node.findChannel room.app.id room.channel with
  | none => ∅
  | some ch => ch.users.toFinset

def peerUsers (node : Node) (now : Instant) : Finset String :=
  (((node.presenceCache.peersOf room.app.id room.channel).entries.filter fun e =>
    !e.2.expired now).flatMap fun e => e.2.members.keys).toFinset

def knownUsers (node : Node) (now : Instant) : Finset String :=
  localUsers room node ∪ peerUsers room node now

def Admitted (node : Node) (now : Instant) (socketId : String) (pm : PresenceMember) : Prop :=
  ∃ roster, (answer room node now socketId pm).1 = .subscriptionSucceeded room.channel roster

def Rejected (node : Node) (now : Instant) (socketId : String) (pm : PresenceMember) : Prop :=
  (answer room node now socketId pm).1 =
    .errorWithMessage 4301 "Presence channel is over capacity"

/-- How the next join is answered, whoever asks and whenever. -/
structure CapEnforced (node : Node) : Prop where
  newcomer : ∀ now s pm, pm.userId ∉ knownUsers room node now → Admitted room node now s pm →
    (knownUsers room (answer room node now s pm).2 now).card ≤
      room.app.maxPresenceMembersPerChannel
  present : ∀ now s pm, pm.userId ∈ knownUsers room node now → Admitted room node now s pm ∧
    (knownUsers room (answer room node now s pm).2 now).card = (knownUsers room node now).card
  rejected : ∀ now s pm, Rejected room node now s pm → pm.userId ∉ knownUsers room node now ∧
    room.app.maxPresenceMembersPerChannel ≤ (knownUsers room node now).card
  answered : ∀ now s pm, Admitted room node now s pm ∨ Rejected room node now s pm

def Alone (node : Node) : Label → Prop
  | .join now _ _ => peerUsers room node now = ∅
  | _ => True

instance (node : Node) : (label : Label) → Decidable (Alone room node label)
  | .join now _ _ => inferInstanceAs (Decidable (peerUsers room node now = ∅))
  | .leave _ _ => inferInstanceAs (Decidable True)
  | .peers _ => inferInstanceAs (Decidable True)

def WithinCap (node : Node) : Prop :=
  (localUsers room node).card ≤ room.app.maxPresenceMembersPerChannel

end

variable {room : Room} {node : Node} {u : String} {now : Instant}

/-! ## Who is known -/

theorem mem_localUsers : u ∈ localUsers room node ↔ node.HasUser room.app.id room.channel u := by
  rw [localUsers]
  cases hFind : node.findChannel room.app.id room.channel with
  | none =>
    refine iff_of_false (notMem_empty u) ?_
    exact AppChannels.not_hasUser_of_none hFind u
  | some ch =>
    rw [List.mem_toFinset, Channel.mem_users]
    exact (AppChannels.hasUser_of_find hFind u).symm

theorem mem_peerUsers : u ∈ peerUsers room node now ↔
      ∃ n, node.presenceCache.ListsLive now room.app.id room.channel n u := by
  simp only [peerUsers, List.mem_toFinset, List.mem_flatMap, List.mem_filter, Bool.not_eq_true',
    AList.mem_keys.symm, PresenceCache.ListsLive, PresenceCache.roster]
  constructor
  · rintro ⟨⟨n, peer⟩, ⟨hMem, hLive⟩, hUser⟩
    exact ⟨n, peer, mem_entries_iff.mp hMem, hLive, hUser⟩
  · rintro ⟨n, peer, hLookup, hLive, hUser⟩
    exact ⟨⟨n, peer⟩, ⟨mem_entries_iff.mpr hLookup, hLive⟩, hUser⟩

theorem peerUsers_answer (now : Instant) (s : String) (pm : PresenceMember) :
    peerUsers room (answer room node now s pm).2 now = peerUsers room node now := by
  have hCache : (answer room node now s pm).2.presenceCache = node.presenceCache :=
    congrArg EventDispatcher.PeerKnowledge.presenceCache (node.known_answerSubscribe ..)
  rw [peerUsers, peerUsers, hCache]

/-! ## The count that `admit` makes -/

theorem isPresentExcluding_iff :
    node.presenceCache.isPresentExcluding now room.app.id room.channel u none = true ↔
      u ∈ peerUsers room node now := by
  rw [PresenceCache.isPresentExcluding_iff, mem_peerUsers]
  simp

section

variable (h : node.WellFormed)

include h

theorem hasUserId_iff {u : String} :
    ((node.apps room.app.id).entryOrNew room.app room.channel).hasUserId u = true ↔
      u ∈ localUsers room node := by
  obtain ⟨hExact, -⟩ := (h room.app.id).entryOrNew room.app room.channel
  rw [hExact.hasUserId_iff, AppChannels.hasMember_entryOrNew, mem_localUsers]
  rfl

theorem userCount_eq : ((node.apps room.app.id).entryOrNew room.app room.channel).userCount =
      (localUsers room node).card := by
  obtain ⟨hExact, hKind⟩ := (h room.app.id).entryOrNew room.app room.channel
  have hNodup : ((node.apps room.app.id).entryOrNew room.app room.channel).users.Nodup :=
    List.nodup_dedup _
  rw [hExact.userCount_eq (hKind ▸ room.presence), ← List.toFinset_card_of_nodup hNodup]
  congr 1
  ext u
  rw [List.mem_toFinset, Channel.mem_users, AppChannels.hasMember_entryOrNew, mem_localUsers]
  rfl

theorem remoteOnly_length (now : Instant) :
    ((((node.presenceCache.remoteMembersFor now room.app.id room.channel).map
      PresenceSnapshotMember.userId).filter fun u =>
        !((node.apps room.app.id).entryOrNew room.app room.channel).hasUserId u).dedup).length =
      (peerUsers room node now \ localUsers room node).card := by
  rw [← List.card_toFinset]
  congr 1
  ext u
  rw [List.mem_toFinset, List.mem_filter, PresenceCache.mem_remoteMembersFor, mem_sdiff,
    mem_peerUsers, ← hasUserId_iff h, Bool.not_eq_true', Bool.not_eq_true]

theorem admitted_iff (now : Instant) (pm : PresenceMember) :
    (node.admission now room.app room.channel (some pm)).admitted = true ↔
      pm.userId ∈ knownUsers room node now ∨
        (knownUsers room node now).card < room.app.maxPresenceMembersPerChannel := by
  rw [Node.admission, Server.admitJoin]
  simp only [Bool.or_eq_true, decide_eq_true_eq]
  rw [hasUserId_iff h, isPresentExcluding_iff, userCount_eq h, remoteOnly_length h, Nat.add_comm,
    card_sdiff_add_card, union_comm, ← mem_union]
  rfl

theorem wellFormed_answer (now : Instant) (s : String) (pm : PresenceMember) :
    (answer room node now s pm).2.WellFormed := by
  obtain ⟨before, after, -, -, -, hNew⟩ :=
    node.answerSubscribe_spec now room.app s room.channel pm
  have hWell : (node.withSent []).WellFormed := h
  have hPresence : (some pm).isSome = (ChannelKind.fromName room.channel).isPresence :=
    room.presence.symm
  have hJoined := hWell.handleSubscribe now room.app s room.channel hPresence
  rw [hNew] at hJoined
  exact hJoined

end

variable {now : Instant} {s : String} {pm : PresenceMember}

/-! ## One join -/

theorem answer_of_admitted
    (hAdmit : (node.admission now room.app room.channel (some pm)).admitted = true) :
    Admitted room node now s pm := by
  rw [Admitted, answer, Node.answerSubscribe_eq _ _ _ _ _ _ hAdmit, Node.joinReply,
    if_pos room.presence]
  exact ⟨_, rfl⟩

theorem answer_of_rejected
    (hReject : (node.admission now room.app room.channel (some pm)).admitted = false) :
    Rejected room node now s pm := by
  rw [Rejected, answer, Node.answerSubscribe_rejected _ _ _ _ _ _ hReject]

theorem not_admitted_and_rejected (hAdmit : Admitted room node now s pm)
    (hReject : Rejected room node now s pm) : False := by
  obtain ⟨roster, hReply⟩ := hAdmit
  rw [Rejected, hReply] at hReject
  cases hReject

variable (now : Instant) (s : String) {after : Node} {label : Label}

theorem localUsers_answer_subset (pm : PresenceMember) :
    localUsers room (answer room node now s pm).2 ⊆ insert pm.userId (localUsers room node) := by
  intro u hUser
  rw [mem_insert, mem_localUsers]
  obtain ⟨t, m, hMember, hName⟩ := mem_localUsers.mp hUser
  have hAfter := (node.memberOf_answerSubscribe now room.app s room.channel pm
    room.app.id room.channel t).symm.trans hMember
  split at hAfter
  · cases hBefore : node.memberOf room.app.id room.channel t with
    | none =>
      rw [hBefore] at hAfter
      cases hAfter
      exact .inl (Option.some.inj hName).symm
    | some old =>
      rw [hBefore] at hAfter
      cases hAfter
      exact .inr ⟨t, old, hBefore, hName⟩
  · exact .inr ⟨t, m, hAfter, hName⟩

theorem subset_localUsers_answer (pm : PresenceMember) :
    localUsers room node ⊆ localUsers room (answer room node now s pm).2 := by
  intro u hUser
  obtain ⟨t, m, hMember, hName⟩ := mem_localUsers.mp hUser
  have hBefore : node.memberOf room.app.id room.channel t = some m := hMember
  refine mem_localUsers.mpr ⟨t, m, ?_, hName⟩
  refine (node.memberOf_answerSubscribe now room.app s room.channel pm
    room.app.id room.channel t).trans ?_
  split
  · rw [hBefore, Option.getD_some]
  · exact hBefore

theorem localUsers_answer_rejected {now : Instant} {pm : PresenceMember} (s : String)
    (hReject : (node.admission now room.app room.channel (some pm)).admitted = false) :
    localUsers room (answer room node now s pm).2 = localUsers room node := by
  ext u
  rw [mem_localUsers, mem_localUsers]
  have hSame (t : String) : (answer room node now s pm).2.memberOf room.app.id room.channel t =
      node.memberOf room.app.id room.channel t := by
    refine (node.memberOf_answerSubscribe ..).trans (if_neg fun hAll => ?_)
    rw [hReject] at hAll
    cases hAll.2
  constructor
  · rintro ⟨t, m, hMember, hName⟩
    exact ⟨t, m, (hSame t).symm.trans hMember, hName⟩
  · rintro ⟨t, m, hMember, hName⟩
    exact ⟨t, m, (hSame t).trans hMember, hName⟩

theorem knownUsers_answer_subset (pm : PresenceMember) :
    knownUsers room (answer room node now s pm).2 now ⊆
      insert pm.userId (knownUsers room node now) := by
  rw [knownUsers, knownUsers, peerUsers_answer, ← insert_union]
  exact union_subset_union (localUsers_answer_subset now s pm) subset_rfl

theorem subset_knownUsers_answer (pm : PresenceMember) :
    knownUsers room node now ⊆ knownUsers room (answer room node now s pm).2 now := by
  rw [knownUsers, knownUsers, peerUsers_answer]
  exact union_subset_union (subset_localUsers_answer now s pm) subset_rfl

theorem capEnforced (h : node.WellFormed) : CapEnforced room node := by
  have hAnswers (now : Instant) (s : String) (pm : PresenceMember) : Admitted room node now s pm ↔
        (node.admission now room.app room.channel (some pm)).admitted = true := by
    cases hAdmit : (node.admission now room.app room.channel (some pm)).admitted with
    | true => exact iff_of_true (answer_of_admitted hAdmit) rfl
    | false =>
      refine iff_of_false (fun hAdmitted => ?_) (Bool.noConfusion)
      exact not_admitted_and_rejected hAdmitted (answer_of_rejected hAdmit)
  refine ⟨fun now s pm hNew hAdmit => ?_, fun now s pm hKnown => ?_, fun now s pm hReject => ?_,
    fun now s pm => ?_⟩
  · have hRoom := ((admitted_iff h now pm).mp ((hAnswers now s pm).mp hAdmit)).resolve_left hNew
    calc (knownUsers room (answer room node now s pm).2 now).card
        ≤ (insert pm.userId (knownUsers room node now)).card :=
          card_le_card (knownUsers_answer_subset now s pm)
      _ ≤ (knownUsers room node now).card + 1 := card_insert_le _ _
      _ ≤ room.app.maxPresenceMembersPerChannel := hRoom
  · refine ⟨(hAnswers now s pm).mpr ((admitted_iff h now pm).mpr (.inl hKnown)), ?_⟩
    have hSubset : knownUsers room (answer room node now s pm).2 now ⊆ _ :=
      knownUsers_answer_subset now s pm
    rw [insert_eq_of_mem hKnown] at hSubset
    exact congrArg card (hSubset.antisymm (subset_knownUsers_answer now s pm))
  · have hNot : ¬ (node.admission now room.app room.channel (some pm)).admitted = true :=
      fun hAdmit => not_admitted_and_rejected (answer_of_admitted hAdmit) hReject
    rw [admitted_iff h, not_or, Nat.not_lt] at hNot
    exact hNot
  · cases hAdmit : (node.admission now room.app room.channel (some pm)).admitted with
    | true => exact .inl (answer_of_admitted hAdmit)
    | false => exact .inr (answer_of_rejected hAdmit)

/-! ## Whole runs -/

theorem wellFormed_step (h : node.WellFormed) (hStep : step room node label = some after) :
    after.WellFormed := by
  cases label with
  | join now s pm =>
    cases hStep
    exact wellFormed_answer h now s pm
  | leave now s =>
    cases hStep
    exact h.leaveChannel now room.app s room.channel
  | peers cache =>
    cases hStep
    exact h

theorem localUsers_leave_subset :
    localUsers room (node.leaveChannel now room.app s room.channel) ⊆ localUsers room node := by
  intro u hUser
  obtain ⟨t, m, hMember, hName⟩ := mem_localUsers.mp hUser
  have hBefore := (node.memberOf_leaveChannel now room.app s room.channel
    room.app.id room.channel t).symm.trans hMember
  split at hBefore
  · cases hBefore
  · exact mem_localUsers.mpr ⟨t, m, hBefore, hName⟩

theorem withinCap_answer (h : node.WellFormed) (hCap : WithinCap room node) {now : Instant}
    (hAlone : peerUsers room node now = ∅) (s : String) (pm : PresenceMember) :
    WithinCap room (answer room node now s pm).2 := by
  have hKnown : knownUsers room node now = localUsers room node := by
    rw [knownUsers, hAlone, union_empty]
  have hLocal : (localUsers room (answer room node now s pm).2).card ≤
      (knownUsers room (answer room node now s pm).2 now).card :=
    card_le_card subset_union_left
  cases hAdmit : (node.admission now room.app room.channel (some pm)).admitted with
  | false =>
    rw [WithinCap, localUsers_answer_rejected s hAdmit]
    exact hCap
  | true =>
    by_cases hUser : pm.userId ∈ knownUsers room node now
    · have hSame := ((capEnforced h).present now s pm hUser).2
      rw [hSame, hKnown] at hLocal
      exact hLocal.trans hCap
    · exact hLocal.trans ((capEnforced h).newcomer now s pm hUser (answer_of_admitted hAdmit))

theorem withinCap_step (h : node.WellFormed ∧ WithinCap room node) (hAlone : Alone room node label)
    (hStep : step room node label = some after) : after.WellFormed ∧ WithinCap room after := by
  refine ⟨wellFormed_step h.1 hStep, ?_⟩
  cases label with
  | join now s pm =>
    cases hStep
    exact withinCap_answer h.1 h.2 hAlone s pm
  | leave now s =>
    cases hStep
    exact (card_le_card (localUsers_leave_subset now s)).trans h.2
  | peers cache =>
    cases hStep
    exact h.2

/-- In every state of every run the next join is answered as the cap demands, and without
peers the members never have more users than the cap. -/
theorem presence_cap_enforced (room : Room) (nodeId : String) (scaling : Bool)
    (config : String → Option Application) (run : List Label) :
    Always (step room) (CapEnforced room) (Node.new nodeId scaling config) run ∧
      (EachStep (step room) (Alone room) (Node.new nodeId scaling config) run →
        Always (step room) (WithinCap room) (Node.new nodeId scaling config) run) := by
  have hNew : (Node.new nodeId scaling config).WellFormed :=
    (Node.new_faithful nodeId scaling config fun _ _ _ => False).wellFormed
  refine ⟨?_, fun hAlone => ?_⟩
  · have hWell : Always (step room) Node.WellFormed (Node.new nodeId scaling config) run :=
      always_of_invariant (fun _ _ _ => wellFormed_step) hNew run
    exact hWell.mono fun _ => capEnforced
  · have hCap : Always (step room) (fun node => node.WellFormed ∧ WithinCap room node)
        (Node.new nodeId scaling config) run :=
      always_of_step (fun _ _ _ => withinCap_step) ⟨hNew, Nat.zero_le _⟩ hAlone
    exact hCap.mono fun _ h => h.2

def singleRoom : Room where
  app := { exampleApp with maxPresenceMembersPerChannel := 1 }
  channel := "presence-room"
  presence := by decide

theorem singleRoom_within_cap :
    Always (step singleRoom) (WithinCap singleRoom) (Node.new "n1" true exampleTable)
      [.join 0 "1.1" ⟨"alice", none⟩, .join 0 "2.2" ⟨"bob", none⟩, .leave 1 "1.1",
        .join 1 "2.2" ⟨"bob", none⟩] :=
  (presence_cap_enforced singleRoom "n1" true exampleTable _).2 (by decide +kernel)

end Zatat.Capacity
