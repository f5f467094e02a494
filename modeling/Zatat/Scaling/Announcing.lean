import Zatat.Scaling.Convergence
import Zatat.Ws.Alternating

/-! # Announcements to a receiver's subscribers alternate

A live message announces a change again if a snapshot that already contains the
change reaches the receiver first under a lower number. `SnapshotBehind` excludes
that; then every live message that is applied changes the stored roster.
-/

namespace Zatat.Replication

open Function FiniteMap EventDispatcher Transition Replica List Node ChannelKind

def Change.Changes : Change → Set String → Prop
  | .add u, X => u ∉ X
  | .remove u, X => u ∈ X

/-- The captured roster shows the join or the leave already. -/
def LiveUpdate.shownIn (roster : PresenceData) : LiveUpdate → Bool
  | .joined pm => decide (pm.userId ∈ roster.ids)
  | .left u _ _ => decide (u ∉ roster.ids)

/-- The join or leave in progress will not be stale for whoever applied the
roster under the number, and the roster shows it already. -/
def LivePhase.anticipated (seq : Nat) (roster : PresenceData) : LivePhase → Bool
  | .idle => false
  | .mutated update => update.shownIn roster
  | .numbered update seq' => decide (seq < seq') && update.shownIn roster

/-- A roster that is to be enqueued under a number above all others does not show a
join or leave whose own message will still be applied after it. -/
def Sender.SnapshotBehind (sender : Sender) : Prop :=
  match sender.beat with
  | .captured seq roster => roster.count ≠ 0 →
    (∀ env ∈ sender.dispatcher.published, env.seq < seq) →
      sender.live.anticipated seq roster = false
  | _ => True

def SnapshotsBehind (σ : System) : Label → Prop
  | .send n .beatEnqueue => (σ.senders n).SnapshotBehind
  | _ => True

/-- The rosters that the receiver reads in the step are within their time to live. -/
def ReadsFresh (app : Application) (name : String) (σ : System) : Label → Prop
  | .send _ _ => True
  | .deliver _ now => σ.receiver.FreshRosters now app.id name
  | .join now _ _ => σ.receiver.FreshRosters now app.id name
  | .leave now _ => σ.receiver.FreshRosters now app.id name

/-! ## The sender -/

structure Lively (sender : Sender) (pending : List (Nat × PresenceUpdate))
    (copy : Set String × Nat) : Prop where
  decisive : Decisive Change.apply Change.Changes sender.live.abs (pending.map message) copy
  marked : ∀ env ∈ sender.dispatcher.published,
    env.seq ≤ (received Change.apply (pending.map message) copy).2

theorem effective_of_not_anticipated {seq : Nat} {roster : PresenceData} {live : LivePhase}
    (h : live.anticipated seq roster = false) :
    live.abs.Effective Change.Changes ({u | u ∈ roster.ids}, seq) := by
  have hUpdate {update : LiveUpdate} (hNot : update.shownIn roster = false) :
      update.change.Changes {u | u ∈ roster.ids} := by
    cases update with
    | joined pm => exact of_decide_eq_false hNot
    | left u w w' =>
      have hIn : ¬ u ∉ roster.ids := of_decide_eq_false hNot
      exact not_not.mp hIn
  cases live with
  | idle => trivial
  | mutated update => exact hUpdate h
  | numbered update a =>
    intro hLt
    rw [LivePhase.anticipated, decide_eq_true hLt, Bool.true_and] at h
    exact hUpdate h

variable {app : Application} {name n : String} {sender sender' : Sender} {σ : System}
  {pending : List (Nat × PresenceUpdate)} {copy : Set String × Nat} {action : Action}
  {m : Nat × PresenceUpdate} {node : Node}

theorem Lively.of_silent (h : Lively sender pending copy) (hNone : sender.enqueues action = [])
    (hSame : sender'.dispatcher.published = sender.dispatcher.published)
    (hDecisive : Decisive Change.apply Change.Changes sender'.live.abs (pending.map message) copy) :
    Lively sender' (pending ++ sender.enqueues action) copy := by
  rw [hNone, append_nil]
  refine ⟨hDecisive, ?_⟩
  rw [hSame]
  exact h.marked

theorem Lively.of_enqueued (h : Lively sender pending copy)
    (hPublished : sender'.dispatcher.published = sender.dispatcher.published ++
      [encode app name n m]) (hDecisive : Decisive Change.apply Change.Changes sender'.live.abs
      ((pending ++ [m]).map message) copy) : Lively sender' (pending ++ [m]) copy := by
  refine ⟨hDecisive, fun env hEnv => ?_⟩
  rw [map_append, map_singleton]
  rw [hPublished, mem_append, mem_singleton] at hEnv
  rcases hEnv with hEnv | rfl
  · refine Nat.le_trans (h.marked env hEnv) ?_
    rw [received_concat, receive]
    split
    · rename_i hNewer
      exact Nat.le_of_lt hNewer
    · exact Nat.le_refl _
  · exact seq_le_received (m := message m) (mem_append_right _ (mem_singleton_self _)) copy

theorem Lively.step (h : Lively sender pending copy) (hTracks : Tracks n sender pending copy)
    (hBehind : action = .beatEnqueue → sender.SnapshotBehind)
    (hStep : sender.step app name action = some sender') :
    Lively sender' (pending ++ sender.enqueues action) copy := by
  have hDecisive := h.decisive
  have hSync := hTracks.sync
  have hPublished := (hTracks.step hStep).1
  cases action with
  | join s pm =>
    rw [Sender.step] at hStep
    split at hStep <;> cases hStep
    rename_i hIdle
    rw [hIdle] at hDecisive hSync
    refine h.of_silent rfl rfl ?_
    dsimp only
    split
    · rename_i hAdded
      refine hDecisive.mutate hSync fun hHas => ?_
      by_cases hMem : s ∈ sender.channel.members
      · rw [Channel.subscribe_of_mem hMem] at hAdded
        cases hAdded
      · exact (hTracks.exact.subscribe_userAdded hMem (by rw [hTracks.kind]; rfl) rfl).mp hAdded
          hHas
    · exact hDecisive
  | leave s w w' =>
    rw [Sender.step] at hStep
    split at hStep <;> cases hStep
    rename_i hIdle
    rw [hIdle] at hDecisive hSync
    refine h.of_silent rfl rfl ?_
    dsimp only
    cases hRemoved : (sender.channel.unsubscribe s).1.userRemoved with
    | none => exact hDecisive
    | some u =>
      exact hDecisive.mutate hSync ((hTracks.exact.unsubscribe_userRemoved s u).mp hRemoved).1
  | allocate =>
    rw [Sender.step] at hStep
    split at hStep <;> cases hStep
    rename_i update hLive
    rw [hLive] at hDecisive
    exact h.of_silent rfl rfl (hDecisive.number _)
  | enqueue =>
    rw [Sender.step] at hStep
    split at hStep <;> cases hStep
    rename_i update seq hLive
    rw [hLive] at hDecisive
    rw [Sender.enqueues, hLive] at hPublished ⊢
    refine h.of_enqueued hPublished ?_
    rw [map_append, map_singleton, message, content_update]
    exact hDecisive.enqueue
  | beatAllocate | beatCapture =>
    rw [Sender.step] at hStep
    split at hStep <;> cases hStep
    exact h.of_silent rfl rfl hDecisive
  | beatEnqueue =>
    have hBehind := hBehind rfl
    rw [Sender.step] at hStep
    split at hStep <;> cases hStep
    rename_i seq roster hBeat
    rw [Sender.SnapshotBehind, hBeat] at hBehind
    rw [Sender.enqueues, hBeat] at hPublished ⊢
    dsimp only at hPublished ⊢
    split at hPublished
    · rename_i hEmpty
      rw [if_pos hEmpty, append_nil]
      refine ⟨hDecisive, ?_⟩
      rw [hPublished, map_nil, append_nil]
      exact h.marked
    · rename_i hSome
      rw [if_neg hSome]
      refine h.of_enqueued hPublished ?_
      rw [map_append, map_singleton, message, content,
        snapshot_userIds roster (hTracks.captured seq roster hBeat)]
      refine hDecisive.publish fun hNewer => effective_of_not_anticipated ?_
      exact hBehind hSome fun env hEnv => Nat.lt_of_le_of_lt (h.marked env hEnv) hNewer
  | skip =>
    cases hStep
    exact h.of_silent rfl rfl hDecisive

/-! ## The whole system -/

theorem encode_injective (app : Application) (name n : String) : Injective (encode app name n) := by
  rintro ⟨seq, update⟩ ⟨seq', update'⟩ hEq
  rw [encode, encode, envelope, envelope, ScalingEnvelope.mk.injEq] at hEq
  obtain ⟨-, rfl, -, hPayload⟩ := hEq
  cases update <;> cases update' <;> cases hPayload <;> rfl

structure Orderly (app : Application) (name : String) (σ : System) : Prop where
  base : Inv app name σ
  lively : ∀ n pending, onTheWay σ n = pending.map (encode app name n) →
    Lively (σ.senders n) pending (listed σ.receiver app.id name n)
  faithful : σ.receiver.Faithful fun _ _ _ => False
  alternating : σ.receiver.Alternating

theorem orderly_new (hKind : (fromName name).isPresence = true) (receiverId : String)
    {config : String → Option Application} (hApp : config app.id = some app) :
    Orderly app name (System.new name receiverId config) where
  base := inv_new hKind receiverId hApp
  lively n pending hWay := by
    rw [map_eq_nil_iff.mp hWay.symm]
    exact ⟨Decisive.init _, fun env hEnv => (by cases hEnv)⟩
  faithful := new_faithful receiverId true config _
  alternating _ _ _ _ _ hMember := by cases hMember

theorem Orderly.send (h : Orderly app name σ) {n : String} {sender : Sender}
    (hBehind : action = .beatEnqueue → (σ.senders n).SnapshotBehind)
    (hStep : (σ.senders n).step app name action = some sender) :
    Orderly app name { σ with senders := update σ.senders n sender } := by
  refine ⟨h.base.send hStep, fun n' pending hWay => ?_, h.faithful, h.alternating⟩
  dsimp only
  by_cases hn : n' = n
  · subst hn
    obtain ⟨before, hWayBefore, hTracks⟩ := h.base.tracks n'
    have hPublished := (hTracks.step hStep).1
    rw [onTheWay] at hWay hWayBefore
    dsimp only at hWay
    rw [update_self, hPublished, drop_append_of_le_length (h.base.bounded n'),
      hWayBefore, ← map_append] at hWay
    rw [update_self, ← (encode_injective app name n').list_map hWay]
    exact (h.lively n' before hWayBefore).step hTracks hBehind hStep
  · rw [onTheWay] at hWay
    dsimp only at hWay
    rw [update_of_ne hn] at hWay ⊢
    exact h.lively n' pending hWay

theorem effective_of_lively {rest : List (Nat × PresenceUpdate)}
    (h : Lively sender (m :: rest) (listed node app.id name n))
    (hNewer : node.dispatcher.applied n app.id ("p:" ++ name) < m.1) :
    m.2.Effective app.id n name node.presenceCache := by
  have hHead := h.decisive.queued.1 hNewer
  rw [message] at hHead
  cases hUpdate : m.2 with
  | added | removed =>
    rw [hUpdate] at hHead
    exact hHead
  | roster members => trivial

theorem accepting_encode {app app' : Application} {name n : String} {now : Instant}
    (hApp : node.config app.id = some app) (hSeq : 0 < m.1)
    (hAccept : node.accepting now (encode app name n m) n name = some app') :
    app' = app ∧ node.dispatcher.applied n app.id ("p:" ++ name) < m.1 := by
  have hConfig : node.config app.id = some app' := config_of_accepting hAccept
  cases hApp.symm.trans hConfig
  rw [accepting] at hAccept
  split at hAccept
  · have hNewer := (Option.filter_eq_some_iff.mp hAccept).2
    rw [acceptSeq_fst _ _ _ _ _ (show 0 < (encode app name n m).seq from hSeq),
      decide_eq_true_eq] at hNewer
    exact ⟨rfl, hNewer⟩
  · cases hAccept

theorem Orderly.deliver (h : Orderly app name σ) {n : String}
    (hOrigin : n ≠ σ.receiver.dispatcher.nodeId) {env : ScalingEnvelope}
    (hEnv : (σ.senders n).dispatcher.published[σ.delivered n]? = some env) (now : Instant)
    (hFresh : σ.receiver.FreshRosters now app.id name) :
    Orderly app name { σ with
      delivered := update σ.delivered n (σ.delivered n + 1)
      receiver := σ.receiver.handleIncoming now env } := by
  obtain ⟨pending, hWay, hTracks⟩ := h.base.tracks n
  have hLively := h.lively n pending hWay
  have hBase := h.base.deliver hOrigin hEnv now
  obtain ⟨m, rest, rfl, rfl, hRest⟩ := exists_next hEnv hWay
  have hSeq : 0 < m.1 := hTracks.sync.positive (message m) (mem_cons_self ..)
  have hListed (n' : String) :
      listed (σ.receiver.handleIncoming now (encode app name n m)) app.id name n' = _ :=
    listed_handleIncoming h.base.config hOrigin now hSeq n'
  have hAccepted (app' : Application)
      (hAccept : σ.receiver.accepting now (encode app name n m) n name = some app') :=
    accepting_encode h.base.config hSeq hAccept
  refine ⟨hBase, fun n' pending' hWay' => ?_, ?_, ?_⟩
  · rw [onTheWay] at hWay'
    dsimp only at hWay' ⊢
    rw [hListed n']
    by_cases hn : n' = n
    · subst hn
      rw [update_self, hRest] at hWay'
      rw [if_pos rfl, ← (encode_injective app name n').list_map hWay']
      exact ⟨hLively.decisive.deliver, hLively.marked⟩
    · rw [update_of_ne hn] at hWay'
      rw [if_neg hn]
      exact h.lively n' pending' hWay'
  · refine h.faithful.handleIncoming now (encode app name n m) n name m.2 rfl
      fun app' hAccept => ?_
    obtain ⟨rfl, -⟩ := hAccepted app' hAccept
    cases hUpdate : m.2 with
    | added u info => trivial
    | removed u w w' =>
      rintro - ⟨n', hn', hLists⟩
      exact ⟨n', hn', hFresh.listsLive hLists⟩
    | roster members => trivial
  · refine h.alternating.handleIncoming h.faithful now (encode app name n m) n name m.2 rfl
      (fun app' hAccept => ?_) fun app' hAccept => ?_
    · obtain ⟨rfl, -⟩ := hAccepted app' hAccept
      exact hFresh
    · obtain ⟨rfl, hNewer⟩ := hAccepted app' hAccept
      exact effective_of_lively hLively hNewer

theorem Orderly.receiver (h : Orderly app name σ) (hKnown : node.known = σ.receiver.known)
    (hConfig : node.config = σ.receiver.config) (hFaithful : node.Faithful fun _ _ _ => False)
    (hAlternating : node.Alternating) : Orderly app name { σ with receiver := node } where
  base := h.base.receiver hKnown hConfig
  lively n pending hWay := by
    dsimp only
    rw [listed_of_known hKnown]
    exact h.lively n pending hWay
  faithful := hFaithful
  alternating := hAlternating

theorem orderly_step (hKind : (fromName name).isPresence = true) (σ : System)
    (label : Label) (τ : System) (h : Orderly app name σ)
    (hCond : ReadsFresh app name σ label ∧ SnapshotsBehind σ label)
    (hStep : step app name σ label = some τ) : Orderly app name τ := by
  obtain ⟨hFresh, hBehind⟩ := hCond
  cases label with
  | send n action =>
    rw [step] at hStep
    split at hStep
    · cases hStep
    · obtain ⟨sender, hSender, rfl⟩ := Option.map_eq_some_iff.mp hStep
      refine h.send ?_ hSender
      rintro rfl
      exact hBehind
  | deliver n now =>
    rw [step] at hStep
    split at hStep
    · cases hStep
    · rename_i hOrigin
      obtain ⟨env, hEnv, rfl⟩ := Option.map_eq_some_iff.mp hStep
      exact h.deliver hOrigin hEnv now hFresh
  | join now s pm =>
    cases hStep
    have hPresence : (some pm).isSome = (fromName name).isPresence := hKind.symm
    refine h.receiver (handleSubscribe_same ..).1 (handleSubscribe_same ..).2 ?_
      (h.alternating.handleSubscribe h.faithful now app s name hPresence hFresh)
    exact h.faithful.handleSubscribe now app s name hPresence
      fun _ n u hLists => Or.inl ⟨n, Node.FreshRosters.listsLive hFresh hLists⟩
  | leave now s =>
    cases hStep
    refine h.receiver (leaveChannel_same ..).1 (leaveChannel_same ..).2 ?_
      (h.alternating.leaveChannel h.faithful now app s name)
    refine h.faithful.leaveChannel now app s name ?_
    rintro u - ⟨n, hLists⟩
    exact ⟨n, Node.FreshRosters.listsLive hFresh hLists⟩

/-- With fresh rosters and no snapshot ahead of a live message, what each subscriber
of the receiver is told about each user alternates, from the roster it was sent. -/
theorem alternates_of_snapshotsBehind (app : Application) (name receiverId : String)
    (config : String → Option Application) (hKind : (ChannelKind.fromName name).isPresence = true)
    (hApp : config app.id = some app) (run : List Label) (hRun : EachStep (step app name)
      (fun σ label => ReadsFresh app name σ label ∧ SnapshotsBehind σ label)
      (System.new name receiverId config) run) : Always (step app name)
      (fun σ => ∀ s v, (σ.receiver.memberOf app.id name s).isSome = true →
        (heard name v (framesTo σ.receiver.sent app.id s)).Alternates)
      (System.new name receiverId config) run := by
  refine (always_of_step (orderly_step hKind) (orderly_new hKind receiverId hApp) hRun).mono
    fun σ h s v hMember => ?_
  exact h.alternating app.id name s v hKind hMember

instance (sender : Sender) : Decidable sender.SnapshotBehind := by
  unfold Sender.SnapshotBehind
  split <;> infer_instance

instance (σ : System) (label : Label) : Decidable (SnapshotsBehind σ label) := by
  unfold SnapshotsBehind
  split <;> infer_instance

instance (app : Application) (name : String) (σ : System) (label : Label) :
    Decidable (ReadsFresh app name σ label) := by
  unfold ReadsFresh
  split <;> infer_instance

/-- The heartbeat captures before the join changes the membership, so its roster
may be enqueued before the join's message. -/
def capturedEarlyRun : List Label :=
  [.join 0 "2.1" ⟨"carol", none⟩,
    .send "node-b" (.join "1.1" ⟨"alice", none⟩), .send "node-b" .allocate,
    .send "node-b" .enqueue, .deliver "node-b" 0,
    .send "node-b" .beatAllocate, .send "node-b" .beatCapture,
    .send "node-b" (.join "1.2" ⟨"bob", none⟩), .send "node-b" .beatEnqueue,
    .send "node-b" .allocate, .send "node-b" .enqueue,
    .deliver "node-b" 0, .deliver "node-b" 0,
    .send "node-b" (.leave "1.1" false false), .send "node-b" .allocate, .send "node-b" .enqueue,
    .deliver "node-b" 0]

theorem alternates_capturedEarlyRun : Always (step exampleApp "presence-room")
      (fun σ => ∀ s v, (σ.receiver.memberOf "app" "presence-room" s).isSome = true →
        (heard "presence-room" v (framesTo σ.receiver.sent "app" s)).Alternates)
      (System.new "presence-room" "node-a" fun _ => some exampleApp) capturedEarlyRun :=
  alternates_of_snapshotsBehind exampleApp "presence-room" "node-a" (fun _ => some exampleApp)
    (by decide) rfl capturedEarlyRun (by decide)

/-- The heartbeat takes its number, the join changes the membership, the heartbeat
captures and enqueues it, and only then the join takes a number. -/
def capturedLateRun : List Label :=
  [.join 0 "2.1" ⟨"carol", none⟩,
    .send "node-b" .beatAllocate, .send "node-b" (.join "1.1" ⟨"alice", none⟩),
    .send "node-b" .beatCapture, .send "node-b" .beatEnqueue,
    .send "node-b" .allocate, .send "node-b" .enqueue,
    .deliver "node-b" 0, .deliver "node-b" 0]

theorem capturedLateRun_result : (exec (step exampleApp "presence-room")
      (System.new "presence-room" "node-a" fun _ => some exampleApp) capturedLateRun).map
      (fun σ => ((σ.receiver.memberOf "app" "presence-room" "2.1").isSome,
        heard "presence-room" "alice" (framesTo σ.receiver.sent "app" "2.1"))) =
      some (true, ⟨false, [true, true]⟩) := by decide

theorem capturedLateRun_announces_twice : ∃ σ, exec (step exampleApp "presence-room")
        (System.new "presence-room" "node-a" fun _ => some exampleApp) capturedLateRun = some σ ∧
      EachStep (step exampleApp "presence-room") (ReadsFresh exampleApp "presence-room")
        (System.new "presence-room" "node-a" fun _ => some exampleApp) capturedLateRun ∧
      (σ.receiver.memberOf "app" "presence-room" "2.1").isSome = true ∧
      ¬ (heard "presence-room" "alice" (framesTo σ.receiver.sent "app" "2.1")).Alternates := by
  obtain ⟨σ, hRun, hResult⟩ := Option.map_eq_some_iff.mp capturedLateRun_result
  obtain ⟨hMember, hHeard⟩ := Prod.mk.inj hResult
  refine ⟨σ, hRun, by decide, hMember, ?_⟩
  rw [hHeard, Hearing.Alternates]
  decide

end Zatat.Replication
