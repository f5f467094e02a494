import Zatat.Scaling.PeerReplica

/-! # Convergence of one node's counts and users under loss

The counts and the users of a sender are each a lossy replica of their own: what a run
does is, for each of the two, a run of the abstract system. Whatever was lost, a handled
snapshot makes everything current that did not change since its number was taken; if
nothing was lost, everything is current once all is delivered.
-/

namespace Zatat.PeerReplica

open Function FiniteMap EventDispatcher Lossy Freshness Transition List Option AList ChannelKind
open AppChannels

/-! ## What stays as it is on both sides -/

structure Positive {V : Type} (phases : String → Phase V) (beat : Option (Nat × Map String V)) :
    Prop where
  phases : ∀ k seq v, phases k = .numbered seq v → 0 < seq
  beat : ∀ seq seen, beat = some (seq, seen) → 0 < seq

theorem Positive.update {V : Type} {phases : String → Phase V}
    {beat : Option (Nat × Map String V)} (h : Positive phases beat) (k : String)
    {phase : Phase V} (hPhase : ∀ seq v, phase = .numbered seq v → 0 < seq) :
    Positive (update phases k phase) beat := by
  refine ⟨fun x seq v hNow => ?_, h.beat⟩
  rw [update_apply] at hNow
  split at hNow
  · exact hPhase seq v hNow
  · exact h.phases x seq v hNow

theorem Positive.withBeat {V : Type} {phases : String → Phase V}
    {beat : Option (Nat × Map String V)} (h : Positive phases beat) {seq : Nat} (hSeq : 0 < seq)
    (seen : Map String V) : Positive phases (some (seq, seen)) := by
  refine ⟨h.phases, fun seq' seen' hNow => ?_⟩
  cases hNow
  exact hSeq

theorem Positive.noBeat {V : Type} {phases : String → Phase V}
    {beat : Option (Nat × Map String V)} (h : Positive phases beat) : Positive phases none :=
  ⟨h.phases, nofun⟩

structure Sender.Wired (app : Application) (n : String) (sender : Sender) : Prop where
  scaling : sender.dispatcher.scalingEnabled = true
  nodeId : sender.dispatcher.nodeId = n
  counts : Positive sender.counting sender.countBeat
  sessions : Positive sender.signing sender.sessionBeat
  published : ∀ env ∈ sender.dispatcher.published, IsFrom app n env

namespace Sender

variable {app : Application} {n : String} {sender : Sender} {d : EventDispatcher}
  {payload : ScalingPayload} {after : Sender}

/-- The dispatcher takes numbers or queues messages of the node. -/
structure Advances (app : Application) (n : String) (d after : EventDispatcher) : Prop where
  known : after.known = d.known
  published : ∃ new, after.published = d.published ++ new ∧ ∀ env ∈ new, IsFrom app n env

theorem advances_still (d : EventDispatcher) : Advances app n d d :=
  ⟨rfl, [], (append_nil _).symm, fun _ h => absurd h not_mem_nil⟩

theorem advances_nextSeq (d : EventDispatcher) : Advances app n d d.nextSeq.2 :=
  ⟨rfl, [], (append_nil _).symm, fun _ h => absurd h not_mem_nil⟩

theorem advances_spawnPublish (hScaling : d.scalingEnabled = true) {seq : Nat} (hSeq : 0 < seq)
    (hOrigin : payloadNodeId payload = some n) :
    Advances app n d (d.spawnPublish (envelope app seq payload)) := by
  refine ⟨known_spawnPublish .., [envelope app seq payload], ?_, fun env hMem => ?_⟩
  · rw [spawnPublish_of_pos hScaling hSeq]
  · rw [mem_singleton.mp hMem]
    exact ⟨seq, payload, hSeq, rfl, fun _ => hOrigin⟩

theorem advances_unnumbered (hScaling : d.scalingEnabled = true) (hCount : payload.isCount = false)
    (hSession : payload.isSession = false) :
    Advances app n d (d.spawnPublish (envelope app 0 payload)) := by
  refine ⟨known_spawnPublish .., [envelope app (d.seq + 1) payload], ?_, fun env hMem => ?_⟩
  · rw [spawnPublish_unnumbered hScaling]
  · rw [mem_singleton.mp hMem]
    refine ⟨d.seq + 1, payload, Nat.succ_pos _, rfl, ?_⟩
    rw [hCount, hSession]
    exact fun h => h.elim nofun nofun

theorem Wired.advance (h : sender.Wired app n)
    (hDispatcher : Advances app n sender.dispatcher after.dispatcher)
    (hCounts : Positive after.counting after.countBeat)
    (hSessions : Positive after.signing after.sessionBeat) : after.Wired app n where
  scaling := (congrArg PeerKnowledge.scalingEnabled hDispatcher.known).trans h.scaling
  nodeId := (congrArg PeerKnowledge.nodeId hDispatcher.known).trans h.nodeId
  counts := hCounts
  sessions := hSessions
  published env hMem := by
    obtain ⟨new, hPublished, hNew⟩ := hDispatcher.published
    rw [hPublished] at hMem
    exact (mem_append.mp hMem).elim (h.published env) (hNew env)

theorem Wired.moves (h : sender.Wired app n) (hMoves : Moves sender after) : after.Wired app n := by
  cases hMoves with
  | still slot hCounts hUsers => exact h.advance (advances_still _) h.counts h.sessions
  | count slot c count hIdle hCounts hUsers =>
    exact h.advance (advances_still _) (h.counts.update c nofun) h.sessions
  | user slot u online hIdle hCounts hUsers =>
    exact h.advance (advances_still _) h.counts (h.sessions.update u nofun)

theorem Wired.acts (h : sender.Wired app n) (hActs : Acts app sender after) :
    after.Wired app n := by
  have hNext : 0 < sender.dispatcher.nextSeq.1 := Nat.succ_pos _
  cases hActs with
  | moves _ hMoves => exact h.moves hMoves
  | numberCount c count hChanged =>
    refine h.advance (advances_nextSeq _) (h.counts.update c fun seq v hEq => ?_) h.sessions
    cases hEq
    exact hNext
  | queueCount c seq count vacatedWithheld hNumbered =>
    exact h.advance (advances_spawnPublish h.scaling (h.counts.phases c seq count hNumbered)
      (congrArg some h.nodeId)) (h.counts.update c nofun) h.sessions
  | countBeat hBeat =>
    exact h.advance (advances_nextSeq _) (h.counts.withBeat hNext ∅) h.sessions
  | readCount c seq seen hBeat hUnread hPlain =>
    exact h.advance (advances_still _) (h.counts.withBeat (h.counts.beat seq seen hBeat) _)
      h.sessions
  | queueCounts seq seen hBeat hRead =>
    exact h.advance (advances_spawnPublish h.scaling (h.counts.beat seq seen hBeat)
      (congrArg some h.nodeId)) h.counts.noBeat h.sessions
  | numberUser u online hChanged =>
    refine h.advance (advances_nextSeq _) h.counts (h.sessions.update u fun seq v hEq => ?_)
    cases hEq
    exact hNext
  | queueUser u seq online hNumbered =>
    have hOrigin : payloadNodeId (userPayload sender.dispatcher.nodeId u online) = some n := by
      cases online <;> exact congrArg some h.nodeId
    exact h.advance (advances_spawnPublish h.scaling (h.sessions.phases u seq online hNumbered)
      hOrigin) h.counts (h.sessions.update u nofun)
  | sessionBeat hBeat =>
    exact h.advance (advances_nextSeq _) h.counts (h.sessions.withBeat hNext ∅)
  | readUser u seq seen hBeat hUnread =>
    exact h.advance (advances_still _) h.counts
      (h.sessions.withBeat (h.sessions.beat seq seen hBeat) _)
  | queueSessions seq seen hBeat hRead =>
    exact h.advance (advances_spawnPublish h.scaling (h.sessions.beat seq seen hBeat)
      (congrArg some h.nodeId)) h.counts h.sessions.noBeat
  | skip => exact h.advance (advances_nextSeq _) h.counts h.sessions
  | publish payload hCount hSession =>
    exact h.advance (advances_unnumbered h.scaling hCount hSession) h.counts h.sessions

end Sender

/-! ## The abstract systems -/

/-- What a sender announces of itself, a value for each key, and what a receiver holds of it. -/
structure Replica (V : Type) where
  value : Sender → String → V
  changed : Sender → String → Option Nat
  live : Sender → String → Phase V
  beat : Sender → Option (Nat × Map String V)
  message : ScalingEnvelope → Message String V
  copy : Node → String → V × Nat

def Replica.state {V : Type} (r : Replica V) (σ : System) : State String V where
  seq := σ.sender.dispatcher.seq
  value := r.value σ.sender
  changed := r.changed σ.sender
  live := r.live σ.sender
  beat := (r.beat σ.sender).map fun b => (b.1, fun k => b.2.lookup k)
  queue := σ.sender.dispatcher.published.map r.message
  taken := σ.taken
  copy := r.copy σ.receiver

def counts (app : Application) (n : String) : Replica Nat where
  value sender := Sender.countOf sender.slot
  changed := Sender.countChanged
  live := Sender.counting
  beat := Sender.countBeat
  message := countMessage
  copy receiver := receiver.countCopy app.id n

def sessions (app : Application) (n : String) : Replica Bool where
  value sender := sender.slot.isUserOnline
  changed := Sender.userChanged
  live := Sender.signing
  beat := Sender.sessionBeat
  message := sessionMessage
  copy receiver := receiver.sessionCopy app.id n

theorem snapshotCount_countsSeen (seen : Map String Nat) (c : String) :
    Node.snapshotCount (Sender.countsSeen seen) c = (seen.lookup c).getD 0 := by
  rw [Node.snapshotCount]
  cases hFind : (Sender.countsSeen seen).find? fun x => x.channel = c with
  | some x =>
    obtain ⟨hName, -⟩ := List.find?_eq_some_iff_append.mp hFind
    obtain ⟨e, he, rfl⟩ := mem_map.mp (mem_of_find?_eq_some hFind)
    obtain rfl : e.1 = c := of_decide_eq_true hName
    rw [mem_entries_iff.mp (mem_filter.mp he).1]
    rfl
  | none =>
    cases hLookup : seen.lookup c with
    | none => rfl
    | some count =>
      rcases Nat.eq_zero_or_pos count with rfl | hPos
      · rfl
      · have hEntry : (⟨c, count⟩ : Sigma fun _ : String => Nat) ∈ seen.entries :=
          mem_entries_iff.mpr hLookup
        have hMem : ⟨c, count⟩ ∈ Sender.countsSeen seen :=
          mem_map.mpr ⟨⟨c, count⟩, mem_filter.mpr ⟨hEntry, decide_eq_true hPos⟩, rfl⟩
        exact absurd (decide_eq_true rfl) (List.find?_eq_none.mp hFind _ hMem)

theorem mem_usersSeen (seen : Map String Bool) (u : String) :
    decide (u ∈ Sender.usersSeen seen) = (seen.lookup u).getD false := by
  have hIff : u ∈ Sender.usersSeen seen ↔ seen.lookup u = some true := by
    constructor
    · intro hMem
      obtain ⟨e, he, rfl⟩ := mem_map.mp hMem
      obtain ⟨hEntry, hOnline⟩ := mem_filter.mp he
      rw [mem_entries_iff.mp hEntry, hOnline]
    · intro hLookup
      have hEntry : (⟨u, true⟩ : Sigma fun _ : String => Bool) ∈ seen.entries :=
        mem_entries_iff.mpr hLookup
      exact mem_map.mpr ⟨⟨u, true⟩, mem_filter.mpr ⟨hEntry, rfl⟩, rfl⟩
  cases hLookup : seen.lookup u with
  | none =>
    rw [hLookup] at hIff
    exact decide_eq_false fun h => nomatch hIff.mp h
  | some online =>
    rw [hLookup, Option.some.injEq] at hIff
    rw [getD_some]
    cases online with
    | false => exact decide_eq_false fun h => nomatch hIff.mp h
    | true => exact decide_eq_true (hIff.mpr rfl)

section

variable {app : Application} {n : String} {σ : System} {after : Sender} {V : Type}
  {d : EventDispatcher} {slot : AppChannels}

/-- The sender after it has queued a message, as the replica sees it. -/
def Replica.queued (r : Replica V) (σ : System) (after : Sender) (seq : Nat)
    (message : Message String V) : State String V where
  seq := seq
  value := r.value after
  changed := r.changed after
  live := r.live after
  beat := (r.beat after).map fun b => (b.1, fun k => b.2.lookup k)
  queue := (r.state σ).queue ++ [message]
  taken := σ.taken
  copy := r.copy σ.receiver

theorem Replica.state_queued (r : Replica V) {message : Message String V} {env : ScalingEnvelope}
    (hPublished : after.dispatcher.published = σ.sender.dispatcher.published ++ [env])
    (hMessage : r.message env = message) :
    r.state { σ with sender := after } = r.queued σ after after.dispatcher.seq message := by
  refine State.ext rfl rfl rfl rfl rfl ?_ rfl rfl
  rw [state, hPublished, map_append, map_singleton, hMessage]
  rfl

theorem Replica.state_spawnPublish (r : Replica V) {message : Message String V}
    (hScaling : σ.sender.dispatcher.scalingEnabled = true) {env : ScalingEnvelope}
    (hQueued : after.dispatcher = σ.sender.dispatcher.spawnPublish env) (hSeq : 0 < env.seq)
    (hMessage : r.message env = message) :
    r.state { σ with sender := after } =
      r.queued σ after σ.sender.dispatcher.seq message := by
  rw [spawnPublish_of_pos hScaling hSeq] at hQueued
  rw [r.state_queued (congrArg EventDispatcher.published hQueued) hMessage, hQueued]

theorem Replica.state_unnumbered (r : Replica V)
    (hScaling : σ.sender.dispatcher.scalingEnabled = true) {payload : ScalingPayload}
    (hQueued : after.dispatcher = σ.sender.dispatcher.spawnPublish (envelope app 0 payload))
    (hMessage : ∀ seq, r.message (envelope app seq payload) = .other) :
    r.state { σ with sender := after } =
      r.queued σ after (σ.sender.dispatcher.seq + 1) .other := by
  rw [spawnPublish_unnumbered hScaling] at hQueued
  rw [r.state_queued (congrArg EventDispatcher.published hQueued) (hMessage _), hQueued]

theorem beat_insert (seen : Map String V) (k : String) (v : V) :
    (fun x => (seen.insert k v).lookup x) = update (fun x => seen.lookup x) k (some v) := by
  funext x
  rw [lookup_insert_if, update_apply]

theorem countOf_eq_zero {seen : Map String Nat}
    (hRead : ∀ c ∈ slot.channels.keys, (fromName c).isPresence = false → c ∈ seen)
    (c : String) (hUnseen : seen.lookup c = none) : Sender.countOf slot c = 0 := by
  rw [Sender.countOf]
  cases hKind : (fromName c).isPresence with
  | true => rfl
  | false =>
    have hAbsent : slot.channels.lookup c = none := by
      rw [lookup_eq_none]
      intro hMem
      exact lookup_eq_none.mp hUnseen (hRead c (mem_keys.mpr hMem) hKind)
    rw [if_neg Bool.false_ne_true, lenOf, findChannel, hAbsent]
    rfl

theorem Replica.beat_state (r : Replica V) {seq : Nat} {seen : Map String V}
    (hBeat : r.beat σ.sender = some (seq, seen)) :
    (r.state σ).beat = some (seq, fun k => seen.lookup k) :=
  congrArg (Option.map _) hBeat

theorem counts_moves (hMoves : Sender.Moves σ.sender after) :
    Step 0 ((counts app n).state σ) ((counts app n).state { σ with sender := after }) := by
  cases hMoves with
  | still slot hCounts hUsers =>
    have hStep : Step 0 ((counts app n).state σ) _ := .skip _ 0
    exact hStep.congr (State.ext rfl hCounts rfl rfl rfl rfl rfl rfl)
  | count slot c count hIdle hCounts hUsers =>
    have hStep : Step 0 ((counts app n).state σ) _ := .change _ c count hIdle
    exact hStep.congr (State.ext rfl hCounts rfl rfl rfl rfl rfl rfl)
  | user slot u online hIdle hCounts hUsers =>
    have hStep : Step 0 ((counts app n).state σ) _ := .skip _ 0
    exact hStep.congr (State.ext rfl hCounts rfl rfl rfl rfl rfl rfl)

theorem counts_acts (h : σ.sender.Wired app n) (hActs : Sender.Acts app σ.sender after) :
    Step 0 ((counts app n).state σ) ((counts app n).state { σ with sender := after }) := by
  cases hActs with
  | moves _ hMoves => exact counts_moves hMoves
  | numberCount c count hChanged => exact .number ((counts app n).state σ) c count hChanged
  | queueCount c seq count vacatedWithheld hNumbered =>
    exact Step.congr (.queue ((counts app n).state σ) c seq count hNumbered)
      ((counts app n).state_spawnPublish h.scaling rfl (h.counts.phases c seq count hNumbered) rfl)
  | countBeat hBeat =>
    have hStep : Step 0 ((counts app n).state σ) _ := .beatNumber _ (congrArg (Option.map _) hBeat)
    exact hStep.congr (State.ext rfl rfl rfl rfl rfl rfl rfl rfl)
  | readCount c seq seen hBeat hUnread hPlain =>
    have hSome := (counts app n).beat_state hBeat
    have hValue : Sender.countOf σ.sender.slot c = σ.sender.slot.lenOf c := by
      rw [Sender.countOf, hPlain]
      rfl
    have hStep : Step 0 ((counts app n).state σ) _ :=
      .beatRead _ c seq _ hSome (lookup_eq_none.mpr hUnread)
    refine hStep.congr (State.ext rfl rfl rfl rfl ?_ rfl rfl rfl)
    rw [← hValue]
    exact congrArg (fun read => some (seq, read)) (beat_insert seen c _)
  | queueCounts seq seen hBeat hRead =>
    have hSome := (counts app n).beat_state hBeat
    exact Step.congr (.beatQueue ((counts app n).state σ) seq _ hSome (countOf_eq_zero hRead))
      ((counts app n).state_spawnPublish h.scaling rfl (h.counts.beat seq seen hBeat)
        (congrArg (Message.snapshot seq) (funext (snapshotCount_countsSeen seen))))
  | numberUser u online hChanged => exact .skip _ 1
  | queueUser u seq online hNumbered =>
    exact Step.congr (.other ((counts app n).state σ) 0)
      ((counts app n).state_spawnPublish h.scaling rfl (h.sessions.phases u seq online hNumbered)
        (countMessage_other app seq (by cases online <;> rfl)))
  | sessionBeat hBeat => exact .skip _ 1
  | readUser u seq seen hBeat hUnread => exact .skip _ 0
  | queueSessions seq seen hBeat hRead =>
    exact Step.congr (.other ((counts app n).state σ) 0)
      ((counts app n).state_spawnPublish h.scaling rfl (h.sessions.beat seq seen hBeat) rfl)
  | skip => exact .skip _ 1
  | publish payload hCount hSession =>
    exact Step.congr (.other ((counts app n).state σ) 1) ((counts app n).state_unnumbered h.scaling
      rfl fun seq => countMessage_other app seq hCount)

theorem isUserOnline_eq_false {seen : Map String Bool} (hRead : ∀ u ∈ slot.localUserIds, u ∈ seen)
    (u : String) (hUnseen : seen.lookup u = none) : slot.isUserOnline u = false := by
  rw [← Bool.not_eq_true]
  intro hOnline
  refine lookup_eq_none.mp hUnseen (hRead u ?_)
  rw [isUserOnline] at hOnline
  cases hLookup : slot.userIndex.lookup u with
  | none =>
    rw [hLookup] at hOnline
    cases hOnline
  | some sockets =>
    rw [hLookup] at hOnline
    have hEntry : (⟨u, sockets⟩ : Sigma fun _ : String => List String) ∈ slot.userIndex.entries :=
      mem_entries_iff.mpr hLookup
    exact mem_map.mpr ⟨⟨u, sockets⟩, mem_filter.mpr ⟨hEntry, hOnline⟩, rfl⟩

theorem sessions_moves (hMoves : Sender.Moves σ.sender after) :
    Step false ((sessions app n).state σ) ((sessions app n).state { σ with sender := after }) := by
  cases hMoves with
  | still _ _ hUsers | count _ _ _ _ _ hUsers =>
    have hStep : Step false ((sessions app n).state σ) _ := .skip _ 0
    exact hStep.congr (State.ext rfl hUsers rfl rfl rfl rfl rfl rfl)
  | user slot u online hIdle hCounts hUsers =>
    have hStep : Step false ((sessions app n).state σ) _ := .change _ u online hIdle
    exact hStep.congr (State.ext rfl hUsers rfl rfl rfl rfl rfl rfl)

theorem sessions_acts (h : σ.sender.Wired app n) (hActs : Sender.Acts app σ.sender after) :
    Step false ((sessions app n).state σ) ((sessions app n).state { σ with sender := after }) := by
  cases hActs with
  | moves _ hMoves => exact sessions_moves hMoves
  | numberCount c count hChanged => exact .skip _ 1
  | queueCount c seq count vacatedWithheld hNumbered =>
    exact Step.congr (.other ((sessions app n).state σ) 0)
      ((sessions app n).state_spawnPublish h.scaling rfl (h.counts.phases c seq count hNumbered)
        rfl)
  | countBeat hBeat => exact .skip _ 1
  | readCount c seq seen hBeat hUnread hPlain => exact .skip _ 0
  | queueCounts seq seen hBeat hRead =>
    exact Step.congr (.other ((sessions app n).state σ) 0)
      ((sessions app n).state_spawnPublish h.scaling rfl (h.counts.beat seq seen hBeat) rfl)
  | numberUser u online hChanged => exact .number ((sessions app n).state σ) u online hChanged
  | queueUser u seq online hNumbered =>
    exact Step.congr (.queue ((sessions app n).state σ) u seq online hNumbered)
      ((sessions app n).state_spawnPublish h.scaling rfl (h.sessions.phases u seq online hNumbered)
        (by cases online <;> rfl))
  | sessionBeat hBeat =>
    have hStep : Step false ((sessions app n).state σ) _ :=
      .beatNumber _ (congrArg (Option.map _) hBeat)
    exact hStep.congr (State.ext rfl rfl rfl rfl rfl rfl rfl rfl)
  | readUser u seq seen hBeat hUnread =>
    have hSome := (sessions app n).beat_state hBeat
    have hStep : Step false ((sessions app n).state σ) _ :=
      .beatRead _ u seq _ hSome (lookup_eq_none.mpr hUnread)
    exact hStep.congr (State.ext rfl rfl rfl rfl
      (congrArg (fun read => some (seq, read)) (beat_insert seen u _)) rfl rfl rfl)
  | queueSessions seq seen hBeat hRead =>
    have hSome := (sessions app n).beat_state hBeat
    exact Step.congr
      (.beatQueue ((sessions app n).state σ) seq _ hSome (isUserOnline_eq_false hRead))
      ((sessions app n).state_spawnPublish h.scaling rfl (h.sessions.beat seq seen hBeat)
        (congrArg (Message.snapshot seq) (funext (mem_usersSeen seen))))
  | skip => exact .skip _ 1
  | publish payload hCount hSession =>
    exact Step.congr (.other ((sessions app n).state σ) 1)
      ((sessions app n).state_unnumbered h.scaling rfl
        fun seq => sessionMessage_other app seq hSession)

end

/-! ## Runs -/

structure System.Wired (app : Application) (n : String) (σ : System) : Prop where
  sender : σ.sender.Wired app n
  table : σ.receiver.config app.id = some app
  other : n ≠ σ.receiver.dispatcher.nodeId

section

variable {app : Application} {n : String} {σ σ' : System} {label : Label}

theorem System.isFrom_next (h : σ.Wired app n) {env : ScalingEnvelope} (hNext : σ.next = some env) :
    IsFrom app n env :=
  h.sender.published env (mem_of_getElem? hNext)

theorem System.Wired.step (h : σ.Wired app n) (hStep : σ.step app label = some σ') :
    σ'.Wired app n := by
  cases label with
  | send action =>
    obtain ⟨after, hAct, rfl⟩ := map_eq_some_iff.mp hStep
    exact ⟨h.sender.acts (Sender.acts_of_act hAct), h.table, h.other⟩
  | deliver now =>
    obtain ⟨env, -, rfl⟩ := map_eq_some_iff.mp hStep
    obtain ⟨hConfig, hNodeId⟩ := σ.receiver.handleIncoming_same now env
    refine ⟨h.sender, ?_, ?_⟩
    · dsimp only
      rw [hConfig]
      exact h.table
    · dsimp only
      rw [hNodeId]
      exact h.other
  | lose =>
    obtain ⟨env, -, rfl⟩ := map_eq_some_iff.mp hStep
    exact ⟨h.sender, h.table, h.other⟩

/-- What the sender does is a step of the replica, and the receiver takes its messages. -/
structure Simulates {V : Type} (app : Application) (n : String) (initial : V) (r : Replica V) :
    Prop where
  acts : ∀ σ after, Sender.Wired app n σ.sender → Sender.Acts app σ.sender after →
    Step initial (r.state σ) (r.state { σ with sender := after })
  receives : ∀ receiver env now, receiver.config app.id = some app →
    n ≠ receiver.dispatcher.nodeId → IsFrom app n env →
    Receives (r.message env) (r.copy receiver) (r.copy (receiver.handleIncoming now env))

theorem counts_simulates (app : Application) (n : String) : Simulates app n 0 (counts app n) :=
  ⟨fun _ _ h => counts_acts h,
    fun _ _ now hTable hOther hEnv => receives_count hTable hOther hEnv now⟩

theorem sessions_simulates (app : Application) (n : String) :
    Simulates app n false (sessions app n) :=
  ⟨fun _ _ h => sessions_acts h,
    fun _ _ now hTable hOther hEnv => receives_session hTable hOther hEnv now⟩

end

section

variable {V : Type} {app : Application} {n : String} {initial : V} {r : Replica V}
  {σ σ' : System} {run : List Label} {env : ScalingEnvelope} {label : Label}

theorem Replica.message_next (r : Replica V) (hNext : σ.next = some env) :
    (r.state σ).queue[(r.state σ).taken]? = some (r.message env) := by
  rw [state, List.getElem?_map]
  exact congrArg (Option.map r.message) hNext

structure Reached (app : Application) (n : String) (initial : V) (r : Replica V) (σ : System) :
    Prop where
  wired : σ.Wired app n
  inv : Inv initial (r.state σ)
  ordered : Ordered (r.state σ)

variable (hSim : Simulates app n initial r)

include hSim

/-- A step of the system is a step of the replica, or a message is lost. -/
theorem Simulates.step (h : σ.Wired app n) (hStep : σ.step app label = some σ') :
    Step initial (r.state σ) (r.state σ') ∨ label = .lose ∧ Lose (r.state σ) (r.state σ') := by
  cases label with
  | send action =>
    obtain ⟨after, hAct, rfl⟩ := map_eq_some_iff.mp hStep
    exact .inl (hSim.acts σ after h.sender (Sender.acts_of_act hAct))
  | deliver now =>
    obtain ⟨env, hNext, rfl⟩ := map_eq_some_iff.mp hStep
    exact .inl (.deliver (r.state σ) _ _ (r.message_next hNext)
      (hSim.receives _ env now h.table h.other (System.isFrom_next h hNext)))
  | lose =>
    obtain ⟨env, hNext, rfl⟩ := map_eq_some_iff.mp hStep
    exact .inr ⟨rfl, Echo.lt_length_of_next (r.message_next hNext), rfl⟩

theorem Reached.step (h : Reached app n initial r σ) (hStep : σ.step app label = some σ') :
    Reached app n initial r σ' := by
  refine ⟨h.wired.step hStep, ?_, ?_⟩
  · rcases hSim.step h.wired hStep with hAbs | ⟨-, hLose⟩
    · exact h.inv.step hAbs
    · exact h.inv.lose hLose
  · rcases hSim.step h.wired hStep with hAbs | ⟨-, hLose⟩
    · exact h.ordered.step h.inv hAbs
    · exact h.ordered.lose hLose

theorem Reached.exec (h : Reached app n initial r σ)
    (hRun : exec (System.step app) σ run = some σ') : Reached app n initial r σ' :=
  (always_of_invariant (fun _ _ _ hReached => hReached.step hSim) h run).of_exec hRun

theorem Reached.since (h : Reached app n initial r σ) {seq : Nat} (hSince : Since seq (r.state σ))
    (hRun : Transition.exec (System.step app) σ run = some σ') : Since seq (r.state σ') := by
  have hInvariant : ∀ σ label σ', Reached app n initial r σ ∧ Since seq (r.state σ) →
      σ.step app label = some σ' → Reached app n initial r σ' ∧ Since seq (r.state σ') := by
    rintro σ label σ' ⟨hReached, hNow⟩ hStep
    refine ⟨hReached.step hSim hStep, ?_⟩
    rcases hSim.step hReached.wired hStep with hAbs | ⟨-, hLose⟩
    · exact hNow.step hReached.inv hReached.ordered hAbs
    · exact hNow.lose hLose
  exact ((always_of_invariant hInvariant ⟨h, hSince⟩ run).of_exec hRun).2

theorem Reached.heard (h : Reached app n initial r σ) (hHeard : Heard (r.state σ))
    (hKept : Label.lose ∉ run) (hRun : Transition.exec (System.step app) σ run = some σ') :
    Heard (r.state σ') := by
  induction run generalizing σ with
  | nil =>
    cases hRun
    exact hHeard
  | cons label run ih =>
    obtain ⟨σ₁, hStep, hRest⟩ := bind_eq_some_iff.mp hRun
    rw [mem_cons, not_or] at hKept
    rcases hSim.step h.wired hStep with hAbs | ⟨rfl, -⟩
    · exact ih (h.step hSim hStep) (hHeard.step h.ordered hAbs) hKept.2 hRest
    · exact absurd rfl hKept.1

/-- Once a snapshot is handled, what has not changed since its number was taken is current. -/
theorem Reached.current (h : Reached app n initial r σ) (hNext : σ.next = some env)
    {said : String → V} (hMessage : r.message env = .snapshot env.seq said) {now : Instant}
    (hRun : Transition.exec (System.step app) σ (.deliver now :: run) = some σ') {k : String}
    (hAfter : After (r.changed σ'.sender k) env.seq) :
    (r.copy σ'.receiver k).1 = r.value σ'.sender k := by
  obtain ⟨σ₁, hDeliver, hRest⟩ := bind_eq_some_iff.mp hRun
  refine ((h.step hSim hDeliver).since hSim ?_ hRest).current k hAfter
  obtain ⟨env', hNext', rfl⟩ := map_eq_some_iff.mp hDeliver
  obtain rfl : env = env' := Option.some.inj (hNext.symm.trans hNext')
  have hQueue := r.message_next hNext
  have hReceives := hSim.receives _ env now h.wired.table h.wired.other
    (System.isFrom_next h.wired hNext)
  rw [hMessage] at hQueue hReceives
  exact Since.of_deliver h.ordered h.inv hQueue hReceives

/-- If nothing was lost, all is current once all is delivered. -/
theorem Reached.settled (h : Reached app n initial r σ) (hHeard : Heard (r.state σ))
    (hRun : Transition.exec (System.step app) σ run = some σ') (hKept : Label.lose ∉ run)
    {k : String} (hIdle : r.live σ'.sender k = .idle)
    (hTaken : σ'.taken = σ'.sender.dispatcher.published.length) :
    (r.copy σ'.receiver k).1 = r.value σ'.sender k :=
  (h.heard hSim hHeard hKept hRun).eq_of_all_taken (h.exec hSim hRun).inv hIdle
    (hTaken.trans (List.length_map _).symm)

end

/-! ## Convergence -/

structure Unacquainted (app : Application) (n : String) (receiver : Node) : Prop where
  count : ∀ c, receiver.dispatcher.peerChannelCounts.entry app.id c n = none
  session : receiver.dispatcher.peerUserSessions.entry app.id n = none
  applied : ∀ key, receiver.dispatcher.applied n app.id key = 0

structure Receiver (app : Application) (n : String) (receiver : Node) : Prop where
  table : receiver.config app.id = some app
  other : n ≠ receiver.dispatcher.nodeId
  unacquainted : Unacquainted app n receiver

section

variable {app : Application} {n : String} {receiver : Node}

variable (h : Receiver app n receiver)

include h

theorem wired_start : (System.start n receiver).Wired app n :=
  have hPositive {V : Type} : Positive (fun _ : String => (.idle : Phase V)) none :=
    ⟨nofun, nofun⟩
  ⟨⟨rfl, rfl, hPositive, hPositive, fun _ hMem => absurd hMem not_mem_nil⟩, h.table, h.other⟩

theorem fresh_counts : Fresh 0 ((counts app n).state (System.start n receiver)) where
  value c := by
    have hEmpty : (Sender.new n).slot.lenOf c = 0 := rfl
    exact (if_congr Iff.rfl rfl hEmpty).trans (ite_self 0)
  changed _ := rfl
  live _ := rfl
  beat := rfl
  queue := rfl
  taken := rfl
  copy c := by
    refine Prod.ext ?_ (h.unacquainted.applied _)
    exact congrArg (fun e : Option CountEntry => (e.map CountEntry.count).getD 0)
      (h.unacquainted.count c)

theorem fresh_sessions : Fresh false ((sessions app n).state (System.start n receiver)) where
  value _ := rfl
  changed _ := rfl
  live _ := rfl
  beat := rfl
  queue := rfl
  taken := rfl
  copy u := by
    refine Prod.ext (decide_eq_false ?_) (h.unacquainted.applied _)
    rw [PeerUserSessions.mem_usersOf]
    rintro ⟨e, hEntry, -⟩
    exact nomatch hEntry.symm.trans h.unacquainted.session

theorem reached_counts : Reached app n 0 (counts app n) (System.start n receiver) :=
  ⟨wired_start h, (fresh_counts h).inv, (fresh_counts h).ordered⟩

theorem reached_sessions : Reached app n false (sessions app n) (System.start n receiver) :=
  ⟨wired_start h, (fresh_sessions h).inv, (fresh_sessions h).ordered⟩

end

structure CountsAtRest (σ : System) : Prop where
  counting : ∀ c, σ.sender.counting c = .idle
  countBeat : σ.sender.countBeat = none
  taken : σ.taken = σ.sender.dispatcher.published.length

structure SessionsAtRest (σ : System) : Prop where
  signing : ∀ u, σ.sender.signing u = .idle
  sessionBeat : σ.sender.sessionBeat = none
  taken : σ.taken = σ.sender.dispatcher.published.length

theorem countOf_of_plain (slot : AppChannels) {c : String}
    (hPlain : (fromName c).isPresence = false) :
    Sender.countOf slot c = slot.lenOf c := by
  rw [Sender.countOf, hPlain]
  rfl

theorem counts_converge {app : Application} {n : String} {receiver : Node}
    (hReceiver : Receiver app n receiver) :
    (∀ (before after : List Label) (σ₁ σ : System) (now : Instant) (env : ScalingEnvelope)
        (listed : List ChannelCount),
      exec (System.step app) (System.start n receiver) before = some σ₁ →
      σ₁.next = some env → env.payload = .ChannelCountSnapshot n listed →
      exec (System.step app) σ₁ (.deliver now :: after) = some σ →
      ∀ c, (ChannelKind.fromName c).isPresence = false → After (σ.sender.countChanged c) env.seq →
        σ.receiver.dispatcher.peerChannelCounts.count app.id c n = σ.sender.slot.lenOf c) ∧
    (∀ (run : List Label) (σ : System),
      exec (System.step app) (System.start n receiver) run = some σ → Label.lose ∉ run →
      CountsAtRest σ → ∀ c, (ChannelKind.fromName c).isPresence = false →
        σ.receiver.dispatcher.peerChannelCounts.count app.id c n = σ.sender.slot.lenOf c) := by
  have hSim := counts_simulates app n
  have hStart := reached_counts hReceiver
  constructor
  · intro before after σ₁ σ now env listed hBefore hNext hPayload hRun c hPlain hAfter
    have hMessage : countMessage env = .snapshot env.seq (Node.snapshotCount listed) := by
      rw [countMessage, hPayload]
    have hCurrent := (hStart.exec hSim hBefore).current hSim hNext hMessage hRun hAfter
    exact hCurrent.trans (countOf_of_plain _ hPlain)
  · intro run σ hRun hKept hRest c hPlain
    have hSettled := hStart.settled hSim (fresh_counts hReceiver).heard hRun hKept
      (hRest.counting c) hRest.taken
    exact hSettled.trans (countOf_of_plain _ hPlain)

def exampleReceiver : Node := Node.new "b" true fun _ => some exampleApp

theorem exampleReceiver_receives : Receiver exampleApp "a" exampleReceiver :=
  ⟨rfl, by decide, ⟨fun _ => rfl, rfl, fun _ => rfl⟩⟩

theorem exec_deliver (run : List Label) (env : ScalingEnvelope) {α : Type} (f : System → α) {x : α}
    (hNext : (exec (System.step exampleApp) (System.start "a" exampleReceiver) run).map
      System.next = some (some env))
    (hResult : (exec (System.step exampleApp) (System.start "a" exampleReceiver)
      (run ++ [.deliver 0])).map f = some x) : ∃ σ₁ σ,
    exec (System.step exampleApp) (System.start "a" exampleReceiver) run = some σ₁ ∧
      σ₁.next = some env ∧ exec (System.step exampleApp) σ₁ [.deliver 0] = some σ ∧ f σ = x := by
  obtain ⟨σ₁, hBefore, hEnv⟩ := Option.map_eq_some_iff.mp hNext
  obtain ⟨σ, hRun, hx⟩ := Option.map_eq_some_iff.mp hResult
  rw [exec_append, hBefore, Option.bind_some] at hRun
  exact ⟨σ₁, σ, hBefore, hEnv, hRun, hx⟩

/-- The live count is lost; a snapshot is numbered, read and queued after it. -/
def lostCount : List Label :=
  [.send (.join 0 "room" "1.1" none fun _ => true), .send (.numberCount "room"),
    .send (.queueCount "room" false), .lose, .send .countBeat, .send (.readCount "room"),
    .send .queueCounts]

theorem lostCount_converges : ∃ σ₁ σ,
    exec (System.step exampleApp) (System.start "a" exampleReceiver) lostCount = some σ₁ ∧
      exec (System.step exampleApp) σ₁ [.deliver 0] = some σ ∧
      σ.receiver.dispatcher.peerChannelCounts.count exampleApp.id "room" "a" = 1 := by
  obtain ⟨σ₁, σ, hBefore, hNext, hRun, hFacts⟩ := exec_deliver lostCount
    (envelope exampleApp 2 (.ChannelCountSnapshot "a" [⟨"room", 1⟩]))
    (fun σ => (σ.sender.slot.lenOf "room", σ.sender.countChanged "room")) rfl rfl
  obtain ⟨hLen, hChanged⟩ := Prod.mk.inj hFacts
  have hAfter : After (σ.sender.countChanged "room") 2 := by
    rw [hChanged]
    rintro _ ⟨⟩
    decide
  refine ⟨σ₁, σ, hBefore, hRun, ?_⟩
  exact ((counts_converge exampleReceiver_receives).1 lostCount [] σ₁ σ 0 _ _ hBefore hNext rfl
    hRun "room" (by decide) hAfter).trans hLen

theorem sessions_converge {app : Application} {n : String} {receiver : Node}
    (hReceiver : Receiver app n receiver) :
    (∀ (before after : List Label) (σ₁ σ : System) (now : Instant) (env : ScalingEnvelope)
        (userIds : List String), exec (System.step app) (System.start n receiver) before = some σ₁ →
      σ₁.next = some env → env.payload = .UserSessionSnapshot n userIds →
      exec (System.step app) σ₁ (.deliver now :: after) = some σ →
      ∀ u, After (σ.sender.userChanged u) env.seq →
        (u ∈ σ.receiver.dispatcher.peerUserSessions.usersOf app.id n ↔
          σ.sender.slot.isUserOnline u = true)) ∧ (∀ (run : List Label) (σ : System),
      exec (System.step app) (System.start n receiver) run = some σ → Label.lose ∉ run →
      SessionsAtRest σ → ∀ u, u ∈ σ.receiver.dispatcher.peerUserSessions.usersOf app.id n ↔
          σ.sender.slot.isUserOnline u = true) := by
  have hSim := sessions_simulates app n
  have hStart := reached_sessions hReceiver
  have hIff {σ : System} {u : String}
      (h : ((sessions app n).copy σ.receiver u).1 = (sessions app n).value σ.sender u) :
      u ∈ σ.receiver.dispatcher.peerUserSessions.usersOf app.id n ↔
        σ.sender.slot.isUserOnline u = true := by
    have hStored : decide (u ∈ σ.receiver.dispatcher.peerUserSessions.usersOf app.id n) =
        σ.sender.slot.isUserOnline u := h
    rw [← hStored, decide_eq_true_eq]
  constructor
  · intro before after σ₁ σ now env userIds hBefore hNext hPayload hRun u hAfter
    have hMessage : sessionMessage env = .snapshot env.seq fun u => decide (u ∈ userIds) := by
      rw [sessionMessage, hPayload]
    exact hIff ((hStart.exec hSim hBefore).current hSim hNext hMessage hRun hAfter)
  · intro run σ hRun hKept hRest u
    exact hIff (hStart.settled hSim (fresh_sessions hReceiver).heard hRun hKept (hRest.signing u)
      hRest.taken)

def lostSignIn : List Label :=
  [.send (.bind "alice" "1.1"), .send (.numberUser "alice"), .send (.queueUser "alice"), .lose,
    .send .sessionBeat, .send (.readUser "alice"), .send .queueSessions]

theorem lostSignIn_converges : ∃ σ₁ σ,
    exec (System.step exampleApp) (System.start "a" exampleReceiver) lostSignIn = some σ₁ ∧
      exec (System.step exampleApp) σ₁ [.deliver 0] = some σ ∧
      "alice" ∈ σ.receiver.dispatcher.peerUserSessions.usersOf exampleApp.id "a" := by
  obtain ⟨σ₁, σ, hBefore, hNext, hRun, hFacts⟩ := exec_deliver lostSignIn
    (envelope exampleApp 2 (.UserSessionSnapshot "a" ["alice"]))
    (fun σ => (σ.sender.slot.isUserOnline "alice", σ.sender.userChanged "alice")) rfl rfl
  obtain ⟨hOnline, hChanged⟩ := Prod.mk.inj hFacts
  have hAfter : After (σ.sender.userChanged "alice") 2 := by
    rw [hChanged]
    rintro _ ⟨⟩
    decide
  refine ⟨σ₁, σ, hBefore, hRun, ?_⟩
  exact ((sessions_converge exampleReceiver_receives).1 lostSignIn [] σ₁ σ 0 _ _ hBefore hNext rfl
    hRun "alice" hAfter).mpr hOnline

end Zatat.PeerReplica
