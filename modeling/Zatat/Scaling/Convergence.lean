import Zatat.Scaling.Replication

/-! # The receiver's roster converges to the sender's members

The members of a sender's channel, the messages on their way and the roster the
receiver stores are an instance of a replica kept by numbered updates and
snapshots.
-/

namespace Zatat.Replication

open Function FiniteMap EventDispatcher Transition Replica Channel Server List PresenceCache

inductive Change where
  | add (userId : String)
  | remove (userId : String)

def Change.apply : Change → Set String → Set String
  | .add u, X => insert u X
  | .remove u, X => X \ {u}

theorem Change.apply_apply (change : Change) (X : Set String) :
    change.apply (change.apply X) = change.apply X := by
  cases change with
  | add | remove => simp [Change.apply]

def content : PresenceUpdate → Content (Set String) Change
  | .added u _ => .update (.add u)
  | .removed u _ _ => .update (.remove u)
  | .roster members => .snapshot {u | u ∈ members.map PresenceSnapshotMember.userId}

def LiveUpdate.change : LiveUpdate → Change
  | .joined pm => .add pm.userId
  | .left u _ _ => .remove u

def LivePhase.abs : LivePhase → Live Change
  | .idle => .idle
  | .mutated update => .mutated update.change
  | .numbered update seq => .numbered update.change seq

def BeatPhase.abs : BeatPhase → Beat (Set String)
  | .idle => .idle
  | .numbered seq => .numbered seq
  | .captured seq roster => .captured seq {u | u ∈ roster.ids}

def members (ch : Channel) : Set String := {u | ch.HasMember u}

def listed (node : Node) (appId name n : String) : Set String × Nat :=
  ({u | node.presenceCache.Lists appId name n u}, node.dispatcher.applied n appId ("p:" ++ name))

def encode (app : Application) (name n : String) (m : Nat × PresenceUpdate) : ScalingEnvelope :=
  envelope app m.1 (m.2.payload n name)

def message (m : Nat × PresenceUpdate) : Message (Set String) Change := ⟨m.1, content m.2⟩

theorem content_update (update : LiveUpdate) : content update.update = .update update.change := by
  cases update <;> rfl

/-! ## The sender -/

theorem members_subscribe {ch : Channel} (h : ch.Exact) (hKind : ch.kind.isPresence = true)
    (s : String) (pm : PresenceMember) : members (ch.subscribe s (some pm)).2 =
      if (ch.subscribe s (some pm)).1.userAdded then (Change.add pm.userId).apply (members ch)
      else members ch := by
  by_cases hMem : s ∈ ch.members
  · rw [subscribe_of_mem hMem]
    rfl
  · have hAdded : (ch.subscribe s (some pm)).1.userAdded = true ↔ ¬ ch.HasMember pm.userId :=
      h.subscribe_userAdded hMem (by rw [hKind]; rfl) rfl
    have hAfter (u : String) : u ∈ members (ch.subscribe s (some pm)).2 ↔
        u = pm.userId ∨ u ∈ members ch := by
      refine (hasMember_subscribe hMem (some pm) u).trans (or_congr_left ?_)
      rw [Option.map_some, Option.some.injEq, eq_comm]
    split
    · ext u
      exact hAfter u
    · rename_i hNot
      have hHas : ch.HasMember pm.userId := by
        by_contra hNone
        exact hNot (hAdded.mpr hNone)
      ext u
      rw [hAfter u]
      refine or_iff_right_of_imp ?_
      rintro rfl
      exact hHas

theorem members_unsubscribe {ch : Channel} (h : ch.Exact) (s : String) :
    members (ch.unsubscribe s).2 =
      match (ch.unsubscribe s).1.userRemoved with
      | some u => (Change.remove u).apply (members ch)
      | none => members ch := by
  have hRemoved (u : String) := h.unsubscribe_userRemoved s u
  have hSub (u : String) : (ch.unsubscribe s).2.HasMember u → ch.HasMember u :=
    hasMember_of_unsubscribe
  cases hUser : (ch.unsubscribe s).1.userRemoved with
  | none =>
    ext u
    refine ⟨hSub u, fun hBefore => ?_⟩
    by_contra hAfter
    rw [(hRemoved u).mpr ⟨hBefore, hAfter⟩] at hUser
    cases hUser
  | some v =>
    obtain ⟨-, hGone⟩ := (hRemoved v).mp hUser
    ext u
    constructor
    · intro hAfter
      refine ⟨hSub u hAfter, ?_⟩
      rintro rfl
      exact hGone hAfter
    · rintro ⟨hBefore, hNe⟩
      by_contra hAfter
      have hEq := hUser.symm.trans ((hRemoved u).mpr ⟨hBefore, hAfter⟩)
      exact hNe (Option.some.inj hEq).symm

structure Tracks (n : String) (sender : Sender) (pending : List (Nat × PresenceUpdate))
    (copy : Set String × Nat) : Prop where
  exact : sender.channel.Exact
  kind : sender.channel.kind.isPresence = true
  nodeId : sender.dispatcher.nodeId = n
  scaling : sender.dispatcher.scalingEnabled = true
  captured : ∀ seq roster, sender.beat = .captured seq roster → roster.ids = roster.hash.keys
  sync : InSync Change.apply (members sender.channel) sender.dispatcher.seq sender.live.abs
    sender.beat.abs (pending.map message) copy

theorem spawnPublish_numbered (d : EventDispatcher) (hScaling : d.scalingEnabled = true)
    (app : Application) {seq : Nat} (hSeq : 0 < seq) (payload : ScalingPayload) :
    d.spawnPublish (envelope app seq payload) =
      { d with published := d.published ++ [envelope app seq payload] } :=
  spawnPublish_of_pos hScaling hSeq

theorem snapshot_userIds (roster : PresenceData) (hKeys : roster.ids = roster.hash.keys) :
    (roster.hash.entries.map snapshotMember).map PresenceSnapshotMember.userId = roster.ids := by
  rw [hKeys, map_map]
  rfl

variable {node : Node} {app : Application} {name : String} {σ : System} {n : String}
  {sender : Sender} {pending : List (Nat × PresenceUpdate)} {copy : Set String × Nat}
  {sender' : Sender} {action : Action} {env : ScalingEnvelope}

theorem Tracks.join (h : Tracks n sender pending copy) (hIdle : sender.live = .idle) (s : String)
    (pm : PresenceMember) :
    Tracks n { sender with
      channel := (sender.channel.subscribe s (some pm)).2
      live := if (sender.channel.subscribe s (some pm)).1.userAdded then .mutated (.joined pm)
        else .idle } pending copy := by
  have hSync := h.sync
  rw [hIdle] at hSync
  have hMembers := members_subscribe h.exact h.kind s pm
  have hKind : (sender.channel.subscribe s (some pm)).2.kind.isPresence = true := by
    rw [subscribe_kind]
    exact h.kind
  refine ⟨h.exact.subscribe s (by rw [h.kind]; rfl), hKind, h.nodeId, h.scaling, h.captured, ?_⟩
  dsimp only
  rw [hMembers]
  split
  · exact hSync.mutate (Change.apply_apply ..)
  · exact hSync

theorem Tracks.leave (h : Tracks n sender pending copy) (hIdle : sender.live = .idle) (s : String)
    (w w' : Bool) :
    Tracks n { sender with
      channel := (sender.channel.unsubscribe s).2
      live := match (sender.channel.unsubscribe s).1.userRemoved with
        | some u => .mutated (.left u w w')
        | none => .idle } pending copy := by
  have hSync := h.sync
  rw [hIdle] at hSync
  have hMembers := members_unsubscribe h.exact s
  have hKind : (sender.channel.unsubscribe s).2.kind.isPresence = true := by
    rw [unsubscribe_kind]
    exact h.kind
  refine ⟨h.exact.unsubscribe s, hKind, h.nodeId, h.scaling, h.captured, ?_⟩
  dsimp only
  rw [hMembers]
  cases (sender.channel.unsubscribe s).1.userRemoved with
  | none => exact hSync
  | some u => exact hSync.mutate (Change.apply_apply (.remove u) _)

theorem Tracks.capture (h : Tracks n sender pending copy) {seq : Nat}
    (hBeat : sender.beat = .numbered seq) {roster : PresenceData}
    (hRoster : sender.channel.presenceSnapshot = some roster) :
    Tracks n { sender with beat := .captured seq roster } pending copy := by
  have hSync := h.sync
  rw [hBeat] at hSync
  obtain ⟨data, hData, hIds⟩ := h.exact.mem_presenceSnapshot h.kind
  cases hData.symm.trans hRoster
  have hSet : {u | u ∈ roster.ids} = members sender.channel := Set.ext hIds
  refine ⟨h.exact, h.kind, h.nodeId, h.scaling, ?_, ?_⟩
  · rintro k data ⟨⟩
    rw [presenceSnapshot, if_pos h.kind] at hRoster
    cases hRoster
    exact PresenceData.fromMembers_ids_eq_keys _
  · dsimp only [BeatPhase.abs]
    rw [hSet]
    exact hSync.capture

def Sender.enqueues (sender : Sender) : Action → List (Nat × PresenceUpdate)
  | .enqueue =>
    match sender.live with
    | .numbered update seq => [(seq, update.update)]
    | _ => []
  | .beatEnqueue =>
    match sender.beat with
    | .captured seq roster =>
      if roster.count = 0 then [] else [(seq, .roster (roster.hash.entries.map snapshotMember))]
    | _ => []
  | _ => []

theorem Tracks.of_silent {pending : List (Nat × PresenceUpdate)} {copy : Set String × Nat}
    (hNone : sender.enqueues action = [])
    (hSame : sender'.dispatcher.published = sender.dispatcher.published)
    (h : Tracks n sender' pending copy) : sender'.dispatcher.published =
        sender.dispatcher.published ++ (sender.enqueues action).map (encode app name n) ∧
      Tracks n sender' (pending ++ sender.enqueues action) copy := by
  rw [hNone, map_nil, append_nil, append_nil]
  exact ⟨hSame, h⟩

theorem Tracks.step {pending : List (Nat × PresenceUpdate)} {copy : Set String × Nat}
    (h : Tracks n sender pending copy) (hStep : sender.step app name action = some sender') :
    sender'.dispatcher.published =
        sender.dispatcher.published ++ (sender.enqueues action).map (encode app name n) ∧
      Tracks n sender' (pending ++ sender.enqueues action) copy := by
  have hSync := h.sync
  cases action with
  | join s pm =>
    rw [Sender.step] at hStep
    split at hStep <;> cases hStep
    rename_i hIdle
    exact Tracks.of_silent rfl rfl (h.join hIdle s pm)
  | leave s w w' =>
    rw [Sender.step] at hStep
    split at hStep <;> cases hStep
    rename_i hIdle
    exact Tracks.of_silent rfl rfl (h.leave hIdle s w w')
  | allocate =>
    rw [Sender.step] at hStep
    split at hStep <;> cases hStep
    rename_i update hLive
    rw [hLive] at hSync
    exact Tracks.of_silent rfl rfl ⟨h.exact, h.kind, h.nodeId, h.scaling, h.captured, hSync.number⟩
  | enqueue =>
    rw [Sender.step] at hStep
    split at hStep <;> cases hStep
    rename_i update seq hLive
    rw [hLive] at hSync
    rw [Sender.enqueues, hLive, spawnPublish_numbered _ h.scaling app hSync.liveBounded.1]
    refine ⟨by rw [h.nodeId]; rfl, h.exact, h.kind, h.nodeId, h.scaling, h.captured, ?_⟩
    rw [map_append, map_singleton, message, content_update]
    exact hSync.enqueue
  | beatAllocate =>
    rw [Sender.step] at hStep
    split at hStep <;> cases hStep
    rename_i hBeat
    rw [hBeat] at hSync
    exact Tracks.of_silent rfl rfl ⟨h.exact, h.kind, h.nodeId, h.scaling,
      fun _ _ hFalse => (by cases hFalse), hSync.beatNumber⟩
  | beatCapture =>
    rw [Sender.step] at hStep
    split at hStep <;> cases hStep
    rename_i seq roster hBeat hRoster
    exact Tracks.of_silent rfl rfl (h.capture hBeat hRoster)
  | beatEnqueue =>
    rw [Sender.step] at hStep
    split at hStep <;> cases hStep
    rename_i seq roster hBeat
    have hKeys := h.captured seq roster hBeat
    have hIdle (k : Nat) (data : PresenceData) (hFalse : BeatPhase.idle = .captured k data) :
        data.ids = data.hash.keys := by
      cases hFalse
    rw [hBeat] at hSync
    rw [Sender.enqueues, hBeat, Sender.publishCaptured]
    dsimp only
    split
    · rw [map_nil, append_nil, append_nil]
      exact ⟨rfl, h.exact, h.kind, h.nodeId, h.scaling, hIdle, hSync.discard⟩
    · rw [publishPresenceSnapshot, spawnPublish_numbered _ h.scaling app hSync.beatBounded.1]
      refine ⟨by rw [h.nodeId]; rfl, h.exact, h.kind, h.nodeId, h.scaling, hIdle, ?_⟩
      rw [map_append, map_singleton, message, content, snapshot_userIds roster hKeys]
      exact hSync.publish
  | skip =>
    cases hStep
    exact Tracks.of_silent rfl rfl ⟨h.exact, h.kind, h.nodeId, h.scaling, h.captured, hSync.skip⟩

/-! ## The receiver -/

theorem applied_congr {d d' : EventDispatcher} (h : d.peerSeqs = d'.peerSeqs) (n a k : String) :
    d.applied n a k = d'.applied n a k := by
  rw [applied, applied, h]

theorem users_cache (now : Instant) (a n c : String) (cache : PresenceCache)
    (update : PresenceUpdate) :
    {u | (update.cache now a n c cache).Lists a c n u} =
      (content update).applyTo Change.apply {u | cache.Lists a c n u} := by
  cases update with
  | added u info =>
    ext v
    simp [PresenceUpdate.cache, content, Content.applyTo, Change.apply, lists_addLive]
  | removed u w w' =>
    ext v
    simp [PresenceUpdate.cache, content, Content.applyTo, Change.apply, lists_removeLive, and_comm]
  | roster members =>
    ext v
    simp [PresenceUpdate.cache, content, Content.applyTo, lists_insertSnapshot]

theorem listed_handleIncoming (hApp : node.config app.id = some app)
    (hOrigin : n ≠ node.dispatcher.nodeId) (now : Instant) {m : Nat × PresenceUpdate}
    (hSeq : 0 < m.1) (n' : String) :
    listed (node.handleIncoming now (encode app name n m)) app.id name n' =
      if n' = n then receive Change.apply (listed node app.id name n) (message m)
      else listed node app.id name n' := by
  have hAccept := node.dispatcher.acceptSeq_fst now n app ("p:" ++ name) hSeq
  have hMark := node.dispatcher.applied_acceptSeq now n app ("p:" ++ name) hSeq n' app.id
    ("p:" ++ name)
  have hSeqs : (node.handleIncoming now (encode app name n m)).dispatcher.peerSeqs =
      (node.dispatcher.acceptSeq now n app ("p:" ++ name) m.1).2.peerSeqs := by
    rw [node.handleIncoming_update now (encode app name n m) app n name m.2 (Nat.le_refl _) hApp
      rfl hOrigin]
    split
    · exact (congrArg PeerKnowledge.peerSeqs (known_applyUpdate ..)).trans
        (congrArg PeerKnowledge.peerSeqs (known_observe ..))
    · exact congrArg PeerKnowledge.peerSeqs (known_observe ..)
  have hCache : (node.handleIncoming now (encode app name n m)).presenceCache =
      if node.dispatcher.applied n app.id ("p:" ++ name) < m.1 then
        m.2.cache now app.id n name node.presenceCache
      else m.2.staleCache now app.id n name node.presenceCache := by
    rw [node.handleIncoming_update now (encode app name n m) app n name m.2 (Nat.le_refl _) hApp
      rfl hOrigin]
    have hIff : (node.dispatcher.acceptSeq now n app ("p:" ++ name)
        (encode app name n m).seq).1 = true ↔
        node.dispatcher.applied n app.id ("p:" ++ name) < m.1 := by
      rw [show (encode app name n m).seq = m.1 from rfl, hAccept, decide_eq_true_eq]
    simp only [hIff]
    split
    · refine (congrArg PeerKnowledge.presenceCache (known_applyUpdate ..)).trans ?_
      rw [(node.observe_same ..).2.2]
    · rfl
  rw [listed, applied_congr hSeqs, hMark, hCache]
  by_cases hn : n' = n
  · subst hn
    rw [if_pos rfl, receive, message, listed]
    dsimp only
    split
    · rename_i hNewer
      rw [if_pos ⟨rfl, rfl, rfl, hNewer⟩, users_cache]
    · rename_i hStale
      rw [if_neg (fun hAll => hStale hAll.2.2.2)]
      simp only [PresenceUpdate.lists_staleCache]
  · have hUsers : {u | (if node.dispatcher.applied n app.id ("p:" ++ name) < m.1 then
          m.2.cache now app.id n name node.presenceCache
        else m.2.staleCache now app.id n name node.presenceCache).Lists app.id name n' u} =
        {u | node.presenceCache.Lists app.id name n' u} := by
      ext u
      split
      · exact m.2.lists_cache now app.id n name node.presenceCache (fun hAll => hn hAll.2.2) u
      · exact m.2.lists_staleCache now app.id n name node.presenceCache app.id name n' u
    rw [if_neg hn, hUsers, if_neg (fun hAll => hn hAll.1), listed]

theorem handleIncoming_encode_same (hApp : node.config app.id = some app)
    (hOrigin : n ≠ node.dispatcher.nodeId) (now : Instant) (m : Nat × PresenceUpdate) :
    (node.handleIncoming now (encode app name n m)).config = node.config ∧
      (node.handleIncoming now (encode app name n m)).dispatcher.nodeId =
        node.dispatcher.nodeId := by
  rw [node.handleIncoming_update now (encode app name n m) app n name m.2 (Nat.le_refl _) hApp
    rfl hOrigin]
  split
  · exact ⟨config_applyUpdate .., (congrArg PeerKnowledge.nodeId (known_applyUpdate ..)).trans
        (congrArg PeerKnowledge.nodeId (known_observe ..))⟩
  · exact ⟨rfl, congrArg PeerKnowledge.nodeId (known_observe ..)⟩

theorem listed_of_known {node' : Node} (h : node'.known = node.known) (a name n : String) :
    listed node' a name n = listed node a name n := by
  have hCache : node'.presenceCache = node.presenceCache := congrArg PeerKnowledge.presenceCache h
  have hSeqs : node'.dispatcher.peerSeqs = node.dispatcher.peerSeqs :=
    congrArg PeerKnowledge.peerSeqs h
  rw [listed, listed, hCache, applied_congr hSeqs]

/-! ## The whole system -/

def onTheWay (σ : System) (n : String) : List ScalingEnvelope :=
  (σ.senders n).dispatcher.published.drop (σ.delivered n)

structure Inv (app : Application) (name : String) (σ : System) : Prop where
  config : σ.receiver.config app.id = some app
  bounded : ∀ n, σ.delivered n ≤ (σ.senders n).dispatcher.published.length
  tracks : ∀ n, ∃ pending, onTheWay σ n = pending.map (encode app name n) ∧
    Tracks n (σ.senders n) pending (listed σ.receiver app.id name n)

theorem inv_new (hKind : (ChannelKind.fromName name).isPresence = true) (receiverId : String)
    {config : String → Option Application} (hApp : config app.id = some app) :
    Inv app name (System.new name receiverId config) where
  config := hApp
  bounded n := Nat.le_refl _
  tracks n := by
    refine ⟨[], rfl, withCacheTtl_exact .., hKind, rfl, rfl,
      fun _ _ hFalse => (by cases hFalse), ?_⟩
    have hMembers : members (System.new name receiverId config |>.senders n).channel = ∅ :=
      Set.eq_empty_of_forall_notMem (hasMember_withCacheTtl name none)
    have hListed : listed (System.new name receiverId config).receiver app.id name n = (∅, 0) := by
      refine Prod.ext (Set.eq_empty_of_forall_notMem ?_) rfl
      rintro u ⟨peer, hPeer, -⟩
      cases hPeer
    rw [hMembers, hListed]
    exact InSync.init ∅

theorem Inv.send (h : Inv app name σ) {n : String} {sender : Sender}
    (hStep : (σ.senders n).step app name action = some sender) :
    Inv app name { σ with senders := update σ.senders n sender } := by
  obtain ⟨pending, hWay, hTracks⟩ := h.tracks n
  obtain ⟨hPublished, hTracks'⟩ := hTracks.step hStep
  refine ⟨h.config, fun n' => ?_, fun n' => ?_⟩
  · dsimp only
    rw [update_apply]
    split
    · rename_i hn
      rw [hn, hPublished, length_append]
      exact Nat.le_add_right_of_le (h.bounded n)
    · exact h.bounded n'
  · by_cases hn : n' = n
    · subst hn
      refine ⟨pending ++ (σ.senders n').enqueues action, ?_, ?_⟩
      · rw [onTheWay]
        dsimp only
        rw [update_self, hPublished, drop_append_of_le_length (h.bounded n'), map_append, ← hWay]
        rfl
      · dsimp only
        rw [update_self]
        exact hTracks'
    · obtain ⟨pending', hWay', hTracks''⟩ := h.tracks n'
      refine ⟨pending', ?_, ?_⟩
      · rw [onTheWay]
        dsimp only
        rw [update_of_ne hn, ← hWay']
        rfl
      · dsimp only
        rw [update_of_ne hn]
        exact hTracks''

theorem exists_next {pending : List (Nat × PresenceUpdate)}
    (hEnv : (σ.senders n).dispatcher.published[σ.delivered n]? = some env)
    (hWay : onTheWay σ n = pending.map (encode app name n)) :
    ∃ m rest, pending = m :: rest ∧ env = encode app name n m ∧
      (σ.senders n).dispatcher.published.drop (σ.delivered n + 1) =
        rest.map (encode app name n) := by
  obtain ⟨hLt, hGet⟩ := List.getElem?_eq_some_iff.mp hEnv
  rw [onTheWay, drop_eq_getElem_cons hLt, hGet] at hWay
  cases pending with
  | nil => cases hWay
  | cons m rest =>
    rw [map_cons, List.cons.injEq] at hWay
    exact ⟨m, rest, rfl, hWay.1, hWay.2⟩

theorem Inv.deliver (h : Inv app name σ) {n : String} (hOrigin : n ≠ σ.receiver.dispatcher.nodeId)
    (hEnv : (σ.senders n).dispatcher.published[σ.delivered n]? = some env) (now : Instant) :
    Inv app name { σ with
      delivered := update σ.delivered n (σ.delivered n + 1)
      receiver := σ.receiver.handleIncoming now env } := by
  obtain ⟨pending, hWay, hTracks⟩ := h.tracks n
  obtain ⟨hLt, -⟩ := List.getElem?_eq_some_iff.mp hEnv
  obtain ⟨m, rest, rfl, rfl, hRest⟩ := exists_next hEnv hWay
  have hSeq : 0 < m.1 := hTracks.sync.positive (message m) (mem_cons_self ..)
  have hListed (n' : String) :
      listed (σ.receiver.handleIncoming now (encode app name n m)) app.id name n' = _ :=
    listed_handleIncoming h.config hOrigin now hSeq n'
  refine ⟨?_, fun n' => ?_, fun n' => ?_⟩
  · dsimp only
    rw [(handleIncoming_encode_same h.config hOrigin now m).1]
    exact h.config
  · dsimp only
    rw [update_apply]
    split
    · rename_i hn
      rw [hn]
      exact hLt
    · exact h.bounded n'
  · dsimp only
    rw [onTheWay, hListed n']
    dsimp only
    by_cases hn : n' = n
    · subst hn
      rw [if_pos rfl, update_self]
      exact ⟨rest, hRest, hTracks.exact, hTracks.kind, hTracks.nodeId, hTracks.scaling,
        hTracks.captured, hTracks.sync.deliver⟩
    · rw [if_neg hn, update_of_ne hn]
      exact h.tracks n'

theorem Inv.receiver (h : Inv app name σ) {node : Node} (hKnown : node.known = σ.receiver.known)
    (hConfig : node.config = σ.receiver.config) : Inv app name { σ with receiver := node } where
  config := by
    dsimp only
    rw [hConfig]
    exact h.config
  bounded := h.bounded
  tracks n := by
    dsimp only
    rw [listed_of_known hKnown]
    exact h.tracks n

theorem inv_step (σ : System) (label : Label) (τ : System) (h : Inv app name σ)
    (hStep : step app name σ label = some τ) : Inv app name τ := by
  cases label with
  | send n action =>
    rw [step] at hStep
    split at hStep
    · cases hStep
    · obtain ⟨sender, hSender, rfl⟩ := Option.map_eq_some_iff.mp hStep
      exact h.send hSender
  | deliver n now =>
    rw [step] at hStep
    split at hStep
    · cases hStep
    · rename_i hOrigin
      obtain ⟨env, hEnv, rfl⟩ := Option.map_eq_some_iff.mp hStep
      exact h.deliver hOrigin hEnv now
  | join now s pm =>
    cases hStep
    exact h.receiver (Node.handleSubscribe_same ..).1 (Node.handleSubscribe_same ..).2
  | leave now s =>
    cases hStep
    exact h.receiver (Node.leaveChannel_same ..).1 (Node.leaveChannel_same ..).2

/-- Whenever a sender is at rest, the receiver lists exactly the users present in
the sender's channel. -/
theorem listed_iff_hasMember_of_atRest (app : Application) (name receiverId : String)
    (config : String → Option Application) (hKind : (ChannelKind.fromName name).isPresence = true)
    (hApp : config app.id = some app) (run : List Label) : Always (step app name)
      (fun σ => ∀ n, AtRest σ n → ∀ u, σ.receiver.presenceCache.Lists app.id name n u ↔
        (σ.senders n).channel.HasMember u) (System.new name receiverId config) run := by
  refine (always_of_invariant inv_step (inv_new hKind receiverId hApp) run).mono
    fun σ h n hRest u => ?_
  obtain ⟨pending, hWay, hTracks⟩ := h.tracks n
  rw [onTheWay, hRest.delivered, List.drop_length] at hWay
  have hSync := hTracks.sync
  rw [List.map_eq_nil_iff.mp hWay.symm, hRest.live] at hSync
  exact Set.ext_iff.mp hSync.eq_of_idle u

/-- A roster captured before a leave is enqueued after the leave's message, and a
roster captured after a join is enqueued before the join's. -/
def overtakingRun : List Label :=
  [.send "node-b" (.join "1.1" ⟨"alice", none⟩), .send "node-b" .allocate,
    .send "node-b" .enqueue,
    .send "node-b" .beatAllocate, .send "node-b" .beatCapture,
    .send "node-b" (.leave "1.1" false false), .send "node-b" .allocate, .send "node-b" .enqueue,
    .send "node-b" .beatEnqueue,
    .send "node-b" (.join "1.2" ⟨"bob", none⟩), .send "node-b" .allocate,
    .send "node-b" .beatAllocate, .send "node-b" .beatCapture, .send "node-b" .beatEnqueue,
    .send "node-b" .enqueue,
    .deliver "node-b" 0, .deliver "node-b" 0, .deliver "node-b" 0, .deliver "node-b" 0,
    .deliver "node-b" 0]

theorem listed_iff_hasMember_overtakingRun : Always (step exampleApp "presence-room")
      (fun σ => ∀ n, AtRest σ n → ∀ u, σ.receiver.presenceCache.Lists "app" "presence-room" n u ↔
        (σ.senders n).channel.HasMember u)
      (System.new "presence-room" "node-a" fun _ => some exampleApp) overtakingRun :=
  listed_iff_hasMember_of_atRest exampleApp "presence-room" "node-a" (fun _ => some exampleApp)
    (by decide) rfl overtakingRun

end Zatat.Replication
