import Zatat.Ws.Queueing

/-! # Rosters and queues

The task of a connection writes the frames of its queue one by one, and writes the reply
to an inbound frame ahead of everything still queued. What other members do reaches the
connection through the queue while it is a member. A connection that leaves the channel
and joins again can get the roster of its new membership before changes of the old one;
it has the right view once its queue is empty if those changes still hold.
-/

namespace Zatat

open FiniteMap Transition List Node EventDispatcher.PeerKnowledge

namespace Resubscribing

structure Seat where
  app : Application
  channel : String
  socketId : String
  presence : (ChannelKind.fromName channel).isPresence = true

structure State where
  node : Node
  queue : List Frame
  written : List Frame

inductive Label where
  | write
  | subscribe (now : Instant) (pm : PresenceMember)
  /-- A frame that is refused before the channel is looked at. -/
  | refuse (code : Nat) (message : String)
  | unsubscribe (now : Instant)
  | join (now : Instant) (socketId : String) (pm : PresenceMember)
  | leave (now : Instant) (socketId : String)

section

variable (seat : Seat)

def start (nodeId : String) (scaling : Bool) (config : String → Option Application) : State :=
  ⟨Node.new nodeId scaling config, [], []⟩

/-- The node goes on, and what it hands to the connection is queued. -/
def State.proceed (σ : State) (node : Node) : State :=
  { σ with
    node := node
    queue := σ.queue ++ framesTo (σ.node.sentSince node) seat.app.id seat.socketId }

def State.answer (σ : State) (now : Instant) (socketId : String) (pm : PresenceMember) :
    Frame × Node :=
  σ.node.answerSubscribe now seat.app socketId seat.channel (some pm)

def step (σ : State) : Label → Option State
  | .write =>
    match σ.queue with
    | [] => none
    | frame :: queue => some { σ with queue := queue, written := σ.written ++ [frame] }
  | .subscribe now pm =>
    let answer := σ.answer seat now seat.socketId pm
    some { σ.proceed seat answer.2 with written := σ.written ++ [answer.1] }
  | .refuse code message =>
    some { σ with written := σ.written ++ [.errorWithMessage code message] }
  | .unsubscribe now =>
    some (σ.proceed seat (σ.node.leaveChannel now seat.app seat.socketId seat.channel))
  | .join now socketId pm =>
    if socketId = seat.socketId then none
    else some (σ.proceed seat (σ.answer seat now socketId pm).2)
  | .leave now socketId =>
    if socketId = seat.socketId then none
    else some (σ.proceed seat (σ.node.leaveChannel now seat.app socketId seat.channel))

/-! ## Property and condition -/

def State.isMember (σ : State) : Bool :=
  (σ.node.memberOf seat.app.id seat.channel seat.socketId).isSome

/-- With its queue empty, a member has been told exactly who is present. -/
def ViewExact (σ : State) : Prop :=
  σ.isMember seat = true → σ.queue = [] →
    ∀ u, u ∈ viewOf seat.channel σ.written ↔ σ.node.HasUser seat.app.id seat.channel u

def State.presentAfter (σ : State) (pm : PresenceMember) (userId : String) : Bool :=
  Server.presentIn (σ.node.findChannel seat.app.id seat.channel) userId ||
    decide (pm.userId = userId)

/-- The last change of each user that is still queued holds once the join is made. -/
def queueHolds (σ : State) (pm : PresenceMember) : Bool :=
  σ.queue.all fun frame =>
    match frame.changedUser seat.channel with
    | none => true
    | some u => lastChange seat.channel u σ.queue == some (σ.presentAfter seat pm u)

def Timely (σ : State) : Label → Prop
  | .subscribe now pm =>
    (σ.node.admission now seat.app seat.channel (some pm)).admitted = true →
      σ.isMember seat = false → queueHolds seat σ pm = true
  | _ => True

instance (σ : State) : (label : Label) → Decidable (Timely seat σ label)
  | .subscribe _ _ => inferInstanceAs (Decidable (_ → _ → _))
  | .write | .refuse _ _ | .unsubscribe _ | .join _ _ _ | .leave _ _ =>
    inferInstanceAs (Decidable True)

/-! ## The invariant -/

/-- Had the replies been queued where they were decided, every member would have the right
view; once its queue is written, the connection holds what it would hold then. -/
structure Invariant (σ : State) : Prop where
  alone : ∀ n u, ¬ σ.node.presenceCache.Lists seat.app.id seat.channel n u
  rosterFree : ∀ f ∈ σ.queue, f.roster seat.channel = none
  shadow : ∃ sent, (σ.node.withSent sent).Faithful (fun _ _ _ => False) ∧
    (σ.isMember seat = true → ∀ u,
      (heard seat.channel u (σ.written ++ σ.queue)).current =
        (heard seat.channel u (framesTo sent seat.app.id seat.socketId)).current)

variable {seat}

variable {σ : State} {node : Node} {sent new : List Sent} {channel : String} {app : Application}
  {now : Instant} {pm : PresenceMember}

theorem current_shadow (hFaithful : (node.withSent sent).Faithful (fun _ _ _ => False))
    (hAlone : ∀ n u, ¬ node.presenceCache.Lists seat.app.id seat.channel n u)
    (hMember : (node.memberOf seat.app.id seat.channel seat.socketId).isSome = true) (u : String) :
    (heard seat.channel u (framesTo sent seat.app.id seat.socketId)).current = true ↔
      node.HasUser seat.app.id seat.channel u := by
  obtain ⟨hPresent, hShown⟩ := hFaithful.shows seat.app.id seat.channel seat.socketId u
    seat.presence hMember
  constructor
  · intro hCurrent
    rcases (hShown hCurrent).resolve_right id with hUser | ⟨n, hLists⟩
    · exact hUser
    · exact absurd hLists (hAlone n u)
  · exact fun hUser => hPresent (Or.inl hUser)

theorem Invariant.viewExact (h : Invariant seat σ) : ViewExact seat σ := by
  intro hMember hEmpty u
  obtain ⟨sent, hFaithful, hSame⟩ := h.shadow
  have hHeard := hSame hMember u
  rw [hEmpty, append_nil] at hHeard
  rw [mem_viewOf, hHeard]
  exact current_shadow hFaithful h.alone hMember u

theorem joinAgrees_of_alone (hAlone : ∀ n u, ¬ node.presenceCache.Lists app.id channel n u)
    (now : Instant) (socketId : String) (pm : PresenceMember) :
    node.JoinAgrees now app socketId channel (some pm) :=
  fun _ n u hLists => absurd hLists (hAlone n u)

theorem leaveAgrees_of_alone (hAlone : ∀ n u, ¬ node.presenceCache.Lists app.id channel n u)
    (now : Instant) (socketId : String) : node.LeaveAgrees now app socketId channel := by
  rintro u - ⟨n, hLists⟩
  exact absurd hLists (hAlone n u)

theorem queue_proceed (hSent : node.sent = σ.node.sent ++ new) : (σ.proceed seat node).queue =
      σ.queue ++ framesTo new seat.app.id seat.socketId := by
  change σ.queue ++ framesTo (node.sent.drop σ.node.sent.length) _ _ = _
  rw [hSent, drop_left]

theorem rosterFree_proceed (h : Invariant seat σ) {node : Node}
    (hSent : node.sent = σ.node.sent ++ new) (hFree : ∀ x ∈ new, x.RosterFree) :
    ∀ f ∈ (σ.proceed seat node).queue, f.roster seat.channel = none := by
  rw [queue_proceed hSent]
  intro f hf
  rcases mem_append.mp hf with hMem | hMem
  · exact h.rosterFree f hMem
  · exact rosterFree_framesTo hFree _ _ _ f hMem

theorem invariant_write (h : Invariant seat σ) {frame : Frame} {queue : List Frame}
    (hQueue : σ.queue = frame :: queue) :
    Invariant seat { σ with queue := queue, written := σ.written ++ [frame] } := by
  refine ⟨h.alone, fun f hf => h.rosterFree f (hQueue ▸ mem_cons_of_mem frame hf), ?_⟩
  obtain ⟨sent, hFaithful, hSame⟩ := h.shadow
  refine ⟨sent, hFaithful, fun hMember u => ?_⟩
  have hHeard := hSame hMember u
  rw [hQueue] at hHeard
  rw [append_assoc]
  exact hHeard

theorem current_error (channel u : String) (frames : List Frame) (code : Nat) (message : String) :
    (heard channel u (frames ++ [.errorWithMessage code message])).current =
      (heard channel u frames).current :=
  current_append_of_none (by simp [Frame.roster]) (by simp [Frame.change]) frames

section

variable (h : Invariant seat σ)

include h

theorem invariant_refuse (code : Nat) (message : String) :
    Invariant seat { σ with written := σ.written ++ [.errorWithMessage code message] } := by
  obtain ⟨sent, hFaithful, hSame⟩ := h.shadow
  refine ⟨h.alone, h.rosterFree, sent, hFaithful, fun hMember u => ?_⟩
  rw [← hSame hMember u]
  exact current_append_congr (current_error ..) σ.queue

theorem invariant_leave (now : Instant) (socketId : String) :
    Invariant seat (σ.proceed seat (σ.node.leaveChannel now seat.app socketId seat.channel)) := by
  obtain ⟨new, hFree, hNew⟩ := σ.node.leaveChannel_spec now seat.app socketId seat.presence
  have hSent : (σ.node.leaveChannel now seat.app socketId seat.channel).sent =
      σ.node.sent ++ new := congrArg (fun n : Node => n.sent) (hNew σ.node.sent)
  obtain ⟨sent, hFaithful, hSame⟩ := h.shadow
  have hFaithful' := hFaithful.leaveChannel now seat.app socketId seat.channel
    (leaveAgrees_of_alone h.alone now socketId)
  have hShadow : (σ.node.withSent sent).leaveChannel now seat.app socketId seat.channel =
      (σ.node.leaveChannel now seat.app socketId seat.channel).withSent (sent ++ new) := hNew sent
  rw [hShadow] at hFaithful'
  refine ⟨?_, rosterFree_proceed h hSent hFree, sent ++ new, hFaithful', fun hMember u => ?_⟩
  · have hCache : (σ.node.leaveChannel now seat.app socketId seat.channel).presenceCache =
        σ.node.presenceCache :=
      congrArg presenceCache (σ.node.leaveChannel_same ..).1
    change ∀ n u, ¬ (σ.node.leaveChannel now seat.app socketId
      seat.channel).presenceCache.Lists seat.app.id seat.channel n u
    rw [hCache]
    exact h.alone
  · have hBefore : σ.isMember seat = true := by
      change ((σ.node.leaveChannel now seat.app socketId seat.channel).memberOf seat.app.id
        seat.channel seat.socketId).isSome = true at hMember
      rw [memberOf_leaveChannel] at hMember
      split at hMember
      · cases hMember
      · exact hMember
    rw [queue_proceed hSent, framesTo_append, ← append_assoc]
    exact current_append_congr (hSame hBefore u) _

theorem alone_answer (now : Instant) (socketId : String) (pm : PresenceMember) : ∀ n u,
      ¬ (σ.answer seat now socketId pm).2.presenceCache.Lists seat.app.id seat.channel n u := by
  have hCache : (σ.answer seat now socketId pm).2.presenceCache = σ.node.presenceCache :=
    congrArg presenceCache (σ.node.known_answerSubscribe ..)
  rw [hCache]
  exact h.alone

theorem answer_spec (hFaithful : (σ.node.withSent sent).Faithful (fun _ _ _ => False))
    (now : Instant) (socketId : String) (pm : PresenceMember) :
    ∃ before after : List Sent, (∀ x ∈ before ++ after, x.RosterFree) ∧
      (∀ c v, ∀ f ∈ framesTo (before ++ after) seat.app.id socketId, f.change c v = none) ∧
      (σ.answer seat now socketId pm).2.sent = σ.node.sent ++ (before ++ after) ∧
      ((σ.answer seat now socketId pm).2.withSent (sent ++ (before ++
        [⟨seat.app.id, socketId, .text (σ.answer seat now socketId pm).1⟩] ++ after))).Faithful
          (fun _ _ _ => False) := by
  obtain ⟨before, after, hFree, hNone, hSent, hNew⟩ :=
    σ.node.answerSubscribe_spec now seat.app socketId seat.channel pm
  refine ⟨before, after, hFree, hNone, hSent, ?_⟩
  have hJoined : ((σ.node.withSent sent).handleSubscribe now seat.app socketId seat.channel
      (some pm)).Faithful (fun _ _ _ => False) :=
    hFaithful.handleSubscribe now seat.app socketId seat.channel seat.presence.symm
      (joinAgrees_of_alone h.alone now socketId pm)
  rw [hNew] at hJoined
  exact hJoined

theorem invariant_join (now : Instant) {socketId : String} (hOther : socketId ≠ seat.socketId)
    (pm : PresenceMember) : Invariant seat (σ.proceed seat (σ.answer seat now socketId pm).2) := by
  obtain ⟨sent, hFaithful, hSame⟩ := h.shadow
  obtain ⟨before, after, hFree, -, hSent, hJoined⟩ := answer_spec h hFaithful now socketId pm
  refine ⟨alone_answer h now socketId pm, rosterFree_proceed h hSent hFree, _, hJoined,
    fun hMember u => ?_⟩
  have hBefore : σ.isMember seat = true := by
    change ((σ.node.answerSubscribe now seat.app socketId seat.channel (some pm)).2.memberOf
      seat.app.id seat.channel seat.socketId).isSome = true at hMember
    rw [memberOf_answerSubscribe, if_neg fun hAll => hOther hAll.1.2.2.symm] at hMember
    exact hMember
  have hReply : framesTo [⟨seat.app.id, socketId, .text (σ.answer seat now socketId pm).1⟩]
      seat.app.id seat.socketId = [] :=
    (framesTo_singleton ..).trans (if_neg fun hAll => hOther hAll.2.symm)
  rw [queue_proceed hSent, ← append_assoc]
  simp only [framesTo_append, hReply, append_nil]
  exact current_append_congr (hSame hBefore u) _

/-- What is still queued agrees with who is in the channel once the join is made: by the
condition for a newcomer, and by what it has been told for a member. -/
theorem lastChange_queue (hTimely : Timely seat σ (.subscribe now pm))
    (hAdmit : (σ.node.admission now seat.app seat.channel (some pm)).admitted = true) {u : String}
    {b : Bool} (hLast : lastChange seat.channel u σ.queue = some b) : b = true ↔
      (σ.node.joinedChannel seat.app seat.socketId seat.channel (some pm)).2.HasMember u := by
  obtain ⟨sent, hFaithful, hSame⟩ := h.shadow
  rw [hasMember_joinedChannel]
  cases hMember : σ.node.memberOf seat.app.id seat.channel seat.socketId with
  | none =>
    obtain ⟨f, hf, hChange⟩ := mem_filterMap.mp (mem_of_getLast? hLast)
    have hAll := all_eq_true.mp (hTimely hAdmit (congrArg Option.isSome hMember)) f hf
    rw [Frame.changedUser_of_change hChange] at hAll
    have hHolds := beq_iff_eq.mp hAll
    rw [hLast] at hHolds
    have hWell : σ.node.WellFormed := hFaithful.wellFormed
    rw [Option.some.inj hHolds, State.presentAfter, Bool.or_eq_true, decide_eq_true_iff,
      presentIn_findChannel hWell]
    simp only [Option.map_some, Option.some.injEq, true_and]
  | some m =>
    have hMember' : σ.isMember seat = true := congrArg Option.isSome hMember
    have hHeard := hSame hMember' u
    rw [current_append h.rosterFree, hLast, Option.getD_some] at hHeard
    rw [hHeard, current_shadow hFaithful h.alone hMember' u]
    simp only [reduceCtorEq, false_and, or_false]

theorem current_joinReply
    (hAdmit : (σ.node.admission now seat.app seat.channel (some pm)).admitted = true)
    (frames : List Frame) (u : String) :
    (heard seat.channel u (frames ++ [(σ.answer seat now seat.socketId pm).1])).current = true ↔
      (σ.node.joinedChannel seat.app seat.socketId seat.channel (some pm)).2.HasMember u := by
  obtain ⟨sent, hFaithful, -⟩ := h.shadow
  have hWell : σ.node.WellFormed := hFaithful.wellFormed
  have hPresence : (some pm).isSome = (ChannelKind.fromName seat.channel).isPresence :=
    seat.presence.symm
  obtain ⟨data, hRoster, hIds⟩ := mem_joinReply hWell now seat.app seat.socketId seat.channel
    seat.presence hPresence
  have hReply : (σ.answer seat now seat.socketId pm).1 =
      σ.node.joinReply now seat.app seat.socketId seat.channel (some pm) :=
    congrArg Prod.fst (σ.node.answerSubscribe_eq now seat.app seat.socketId seat.channel (some pm)
      hAdmit)
  rw [heard_append, foldl_cons, foldl_nil, hearStep, hReply, hRoster]
  refine decide_eq_true_iff.trans ((hIds u).trans (or_iff_left ?_))
  rintro ⟨n, hLists⟩
  exact h.alone n u hLists.lists

theorem current_admitted (hTimely : Timely seat σ (.subscribe now pm))
    (hAdmit : (σ.node.admission now seat.app seat.channel (some pm)).admitted = true) (u : String) :
    (heard seat.channel u
      (σ.written ++ [(σ.answer seat now seat.socketId pm).1] ++ σ.queue)).current = true ↔
      (σ.answer seat now seat.socketId pm).2.HasUser seat.app.id seat.channel u := by
  rw [current_append h.rosterFree, State.answer, hasUser_answerSubscribe _ _ _ _ _ _ _ hAdmit]
  cases hLast : lastChange seat.channel u σ.queue with
  | none => exact current_joinReply h hAdmit σ.written u
  | some b => exact lastChange_queue h hTimely hAdmit hLast

theorem invariant_subscribe (now : Instant) (pm : PresenceMember)
    (hTimely : Timely seat σ (.subscribe now pm)) :
    Invariant seat { σ.proceed seat (σ.answer seat now seat.socketId pm).2 with
      written := σ.written ++ [(σ.answer seat now seat.socketId pm).1] } := by
  obtain ⟨sent, hFaithful, hSame⟩ := h.shadow
  obtain ⟨before, after, hFree, hNone, hSent, hJoined⟩ :=
    answer_spec h hFaithful now seat.socketId pm
  have hQueued := rosterFree_framesTo hFree seat.app.id seat.socketId seat.channel
  refine ⟨alone_answer h now seat.socketId pm, rosterFree_proceed h hSent hFree, _, hJoined,
    fun hMember u => ?_⟩
  have hChange := hNone seat.channel u
  change (heard seat.channel u (σ.written ++ [_] ++ (σ.proceed seat _).queue)).current = _
  rw [queue_proceed hSent, ← append_assoc, current_append_of_none hQueued hChange]
  cases hAdmit : (σ.node.admission now seat.app seat.channel (some pm)).admitted with
  | true =>
    rw [Bool.eq_iff_iff, current_shadow hJoined (alone_answer h now seat.socketId pm) hMember u]
    exact current_admitted h hTimely hAdmit u
  | false =>
    have hError : (σ.answer seat now seat.socketId pm).1 =
        .errorWithMessage 4301 "Presence channel is over capacity" :=
      congrArg Prod.fst (σ.node.answerSubscribe_rejected now seat.app seat.socketId seat.channel
        (some pm) hAdmit)
    have hBefore : σ.isMember seat = true := by
      change ((σ.node.answerSubscribe now seat.app seat.socketId seat.channel
        (some pm)).2.memberOf seat.app.id seat.channel seat.socketId).isSome = true at hMember
      rw [memberOf_answerSubscribe, hAdmit, if_neg (by simp)] at hMember
      exact hMember
    rw [framesTo_append] at hQueued hChange
    obtain ⟨hQueued, hQueued'⟩ := forall_mem_append.mp hQueued
    obtain ⟨hChange, hChange'⟩ := forall_mem_append.mp hChange
    rw [framesTo_append, framesTo_append, framesTo_append, framesTo_singleton,
      if_pos ⟨rfl, rfl⟩, ← append_assoc, ← append_assoc,
      current_append_of_none hQueued' hChange', hError, current_error,
      current_append_of_none hQueued hChange, ← hSame hBefore u]
    exact current_append_congr (current_error ..) σ.queue

/-! ## Runs -/

theorem invariant_step {σ' : State} {label : Label} (hTimely : Timely seat σ label)
    (hStep : step seat σ label = some σ') : Invariant seat σ' := by
  cases label with
  | write =>
    simp only [step] at hStep
    split at hStep
    · cases hStep
    next frame queue hQueue =>
      cases hStep
      exact invariant_write h hQueue
  | subscribe now pm =>
    cases hStep
    exact invariant_subscribe h now pm hTimely
  | refuse code message =>
    cases hStep
    exact invariant_refuse h code message
  | unsubscribe now =>
    cases hStep
    exact invariant_leave h now seat.socketId
  | join now socketId pm =>
    obtain ⟨hOther, ⟨⟩⟩ := Option.ite_none_left_eq_some.mp hStep
    exact invariant_join h now hOther pm
  | leave now socketId =>
    obtain ⟨-, ⟨⟩⟩ := Option.ite_none_left_eq_some.mp hStep
    exact invariant_leave h now socketId

end

theorem invariant_start (nodeId : String) (scaling : Bool) (config : String → Option Application) :
    Invariant seat (start nodeId scaling config) := by
  refine ⟨?_, forall_mem_nil _, [], new_faithful nodeId scaling config _, fun _ _ => rfl⟩
  rintro n u ⟨_, hRoster, -⟩
  cases hRoster

variable (seat) in
theorem view_exact_when_drained (nodeId : String) (scaling : Bool)
    (config : String → Option Application) (run : List Label)
    (hTimely : EachStep (step seat) (Timely seat) (start nodeId scaling config) run) :
    Always (step seat) (ViewExact seat) (start nodeId scaling config) run :=
  (always_of_step (fun _ _ _ h => invariant_step h) (invariant_start nodeId scaling config)
    hTimely).mono
    fun _ => Invariant.viewExact

end

/-! ## A departure told after the roster of the next membership -/

def lobby : Seat where
  app := exampleApp
  channel := "presence-lobby"
  socketId := "1.1"
  presence := by decide

def alice : PresenceMember := ⟨"alice", none⟩

def bob : PresenceMember := ⟨"bob", none⟩

def config (appId : String) : Option Application :=
  if appId = exampleApp.id then some exampleApp else none

/-- Bob comes and goes while Alice is a member; she leaves and joins again. -/
def rejoin (between : List Label) : List Label :=
  [.subscribe 0 alice, .join 0 "2.2" bob, .write, .leave 0 "2.2", .unsubscribe 0] ++ between ++
    [.subscribe 0 alice, .write]

theorem rejoin_timely_exact :
    EachStep (step lobby) (Timely lobby) (start "n1" true config) (rejoin []) ∧
      Always (step lobby) (ViewExact lobby) (start "n1" true config) (rejoin []) :=
  have hTimely : EachStep (step lobby) (Timely lobby) (start "n1" true config) (rejoin []) := by
    decide
  ⟨hTimely, view_exact_when_drained lobby "n1" true config _ hTimely⟩

/-- Bob joins again in between: Alice gets a roster with Bob, then the old departure. -/
theorem rejoin_outdated_inexact : ¬ Always (step lobby) (ViewExact lobby) (start "n1" true config)
      (rejoin [.join 0 "2.2" bob]) := by
  intro h
  have hRun : (exec (step lobby) (start "n1" true config) (rejoin [.join 0 "2.2" bob])).map
      (fun σ => (σ.isMember lobby, σ.queue.isEmpty,
        ((σ.node.memberOf "app" "presence-lobby" "2.2").map (·.user),
          decide ("bob" ∈ viewOf "presence-lobby" σ.written)))) =
      some (true, true, (some (some "bob"), false)) := by decide
  obtain ⟨σ, hExec, hEnd⟩ := Option.map_eq_some_iff.mp hRun
  simp only [Prod.mk.injEq, List.isEmpty_iff, decide_eq_false_iff_not] at hEnd
  obtain ⟨hMember, hQueue, hBob, hView⟩ := hEnd
  obtain ⟨m, hStored, hUser⟩ := Option.map_eq_some_iff.mp hBob
  exact hView ((h.of_exec hExec hMember hQueue "bob").mpr ⟨"2.2", m, hStored, hUser⟩)

end Resubscribing

end Zatat
