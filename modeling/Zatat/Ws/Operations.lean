import Zatat.Ws.Roster

/-! # Runs of joins, leaves and presence updates on one node -/

namespace Zatat

open FiniteMap Transition

/-- One operation on a presence channel: a local join or leave, or one message of
a peer. -/
inductive Op where
  | join (now : Instant) (app : Application) (socketId channel : String)
      (presence : Option PresenceMember)
  | leave (now : Instant) (app : Application) (socketId channel : String)
  | incoming (now : Instant) (version seq : Nat) (app : AppRef) (origin channel : String)
      (update : PresenceUpdate)

namespace Node

/-- A join carries user data exactly on a presence channel. -/
def perform (node : Node) : Op → Option Node
  | .join now app socketId channel presence =>
    if presence.isSome = (ChannelKind.fromName channel).isPresence then
      some (node.handleSubscribe now app socketId channel presence)
    else none
  | .leave now app socketId channel => some (node.leaveChannel now app socketId channel)
  | .incoming now version seq app origin channel update =>
    some (node.handleIncoming now ⟨version, seq, app, update.payload origin channel⟩)

variable {node node' : Node} {pending : String → String → String → Prop} {now : Instant} {op : Op}

/-- The decisions of the operation, which ignore rosters past their time to live,
do not depend on them. -/
def Agrees (node : Node) : Op → Prop
  | .join now app socketId channel presence => node.JoinAgrees now app socketId channel presence
  | .leave now app socketId channel => node.LeaveAgrees now app socketId channel
  | .incoming now version seq app origin channel update =>
    ∀ settings, node.accepting now ⟨version, seq, app, update.payload origin channel⟩ origin
      channel = some settings →
      update.Agrees now settings.id origin channel node.presenceCache
        (node.findChannel settings.id channel)

theorem Faithful.perform (h : node.Faithful pending) (op : Op) (hAgrees : node.Agrees op)
    (hStep : node.perform op = some node') : node'.Faithful pending := by
  cases op with
  | join now app socketId channel presence =>
    rw [Node.perform] at hStep
    split at hStep <;> cases hStep
    rename_i hPresence
    exact h.handleSubscribe now app socketId channel hPresence hAgrees
  | leave now app socketId channel =>
    cases hStep
    exact h.leaveChannel now app socketId channel hAgrees
  | incoming now version seq app origin channel update =>
    cases hStep
    exact h.handleIncoming now _ origin channel update rfl hAgrees

def FreshRosters (node : Node) (now : Instant) (a c : String) : Prop :=
  ∀ n peer, node.presenceCache.roster a c n = some peer → peer.expired now = false

theorem freshRosters_iff (node : Node) (now : Instant) (a c : String) : node.FreshRosters now a c ↔
      (node.presenceCache.peersOf a c).entries.all (fun e => !e.2.expired now) = true := by
  rw [List.all_eq_true]
  constructor
  · intro hFresh e hMem
    rw [hFresh e.1 e.2 (mem_entries_iff.mp hMem), Bool.not_false]
  · intro hAll n peer hPeer
    have hLive := hAll ⟨n, peer⟩ (mem_entries_iff.mpr hPeer)
    rwa [Bool.not_eq_true'] at hLive

instance (node : Node) (now : Instant) (a c : String) : Decidable (node.FreshRosters now a c) :=
  decidable_of_iff' _ (node.freshRosters_iff now a c)

def ReadsFresh (node : Node) : Op → Prop
  | .join now app _ channel _ => node.FreshRosters now app.id channel
  | .leave now app _ channel => node.FreshRosters now app.id channel
  | .incoming now _ _ app _ channel _ =>
    ∀ settings ∈ node.config app.id, node.FreshRosters now settings.id channel

instance (node : Node) : (op : Op) → Decidable (node.ReadsFresh op)
  | .join now app _ channel _ => inferInstanceAs (Decidable (node.FreshRosters now app.id channel))
  | .leave now app _ channel => inferInstanceAs (Decidable (node.FreshRosters now app.id channel))
  | .incoming now _ _ app _ channel _ => inferInstanceAs (Decidable
    (∀ settings ∈ node.config app.id, node.FreshRosters now settings.id channel))

theorem FreshRosters.listsLive {a c : String} (h : node.FreshRosters now a c) {n v : String}
    (hLists : node.presenceCache.Lists a c n v) : node.presenceCache.ListsLive now a c n v := by
  obtain ⟨peer, hPeer, hUser⟩ := hLists
  exact ⟨peer, hPeer, h n peer hPeer, hUser⟩

theorem config_of_accepting {env : ScalingEnvelope} {origin channel : String} {app : Application}
    (h : node.accepting now env origin channel = some app) : app ∈ node.config env.app.id := by
  rw [accepting] at h
  split at h
  · exact (Option.filter_eq_some_iff.mp h).1
  · cases h

theorem ReadsFresh.agrees (h : node.ReadsFresh op) : node.Agrees op := by
  cases op with
  | join now app socketId channel presence =>
    intro _ n u hLists
    exact Or.inl ⟨n, FreshRosters.listsLive h hLists⟩
  | leave now app socketId channel =>
    rintro u - ⟨n, hLists⟩
    exact ⟨n, FreshRosters.listsLive h hLists⟩
  | incoming now version seq app origin channel update =>
    intro settings hAccept
    have hFresh := h settings (config_of_accepting hAccept)
    cases update with
    | added u info => trivial
    | removed u w w' =>
      rintro - ⟨n, hn, hLists⟩
      exact ⟨n, hn, hFresh.listsLive hLists⟩
    | roster members => trivial

theorem config_perform (h : node.perform op = some node') : node'.config = node.config := by
  cases op with
  | join now app socketId channel presence =>
    rw [Node.perform] at h
    split at h <;> cases h
    exact (node.handleSubscribe_same ..).2
  | leave now app socketId channel =>
    cases h
    exact (node.leaveChannel_same ..).2
  | incoming now version seq app origin channel update =>
    cases h
    cases hAccept : node.accepting now ⟨version, seq, app, update.payload origin channel⟩ origin
      channel with
    | none =>
      exact (node.handleIncoming_ignored now _ origin channel update rfl hAccept).2.2.1
    | some settings =>
      rw [node.handleIncoming_accepted now _ origin channel update rfl hAccept]
      exact Server.config_applyUpdate ..

/-- Each subscriber of a presence channel sees the local users and the users of
every stored roster, and nobody else. -/
def ViewsExact (node : Node) : Prop :=
  ∀ a c s, (ChannelKind.fromName c).isPresence = true → (node.memberOf a c s).isSome = true →
    ∀ u, u ∈ viewOf c (framesTo node.sent a s) ↔
      node.HasUser a c u ∨ ∃ n, node.presenceCache.Lists a c n u

theorem Faithful.viewsExact (h : node.Faithful pending) (hNone : ∀ a c u, ¬ pending a c u) :
    node.ViewsExact := by
  intro a c s hKind hMember u
  have hShows := h.shows a c s u hKind hMember
  rw [mem_viewOf]
  exact ⟨fun hShown => (hShows.2 hShown).resolve_right (hNone a c u), hShows.1⟩

end Node

/-- After each operation the view of every current subscriber is the set of the
users with a local member socket together with the users of the stored rosters. -/
theorem viewsExact_of_readsFresh (nodeId : String) (scaling : Bool)
    (config : String → Option Application) (run : List Op)
    (hFresh : EachStep Node.perform Node.ReadsFresh (Node.new nodeId scaling config) run) :
    Always Node.perform Node.ViewsExact (Node.new nodeId scaling config) run := by
  have hStep (node : Node) (op : Op) (node' : Node) (h : node.Faithful fun _ _ _ => False)
      (hRead : node.ReadsFresh op) (hPerform : node.perform op = some node') :
      node'.Faithful fun _ _ _ => False :=
    h.perform op hRead.agrees hPerform
  refine (always_of_step hStep (Node.new_faithful nodeId scaling config _) hFresh).mono
    fun node h => ?_
  exact h.viewsExact fun _ _ _ hFalse => hFalse

/-- Two peers and two local sockets share users; every kind of operation occurs. -/
def sharedUsersRun : List Op :=
  [.incoming 0 2 1 ⟨"app", "key"⟩ "node-b" "presence-room" (.added "alice" none),
    .join 1000 exampleApp "1.1" "presence-room" (some ⟨"bob", none⟩),
    .join 1000 exampleApp "1.2" "presence-room" (some ⟨"alice", none⟩),
    .incoming 2000 2 1 ⟨"app", "key"⟩ "node-c" "presence-room"
      (.roster [⟨"bob", none⟩, ⟨"carol", none⟩]),
    .incoming 3000 2 2 ⟨"app", "key"⟩ "node-b" "presence-room" (.removed "alice" false false),
    .leave 4000 exampleApp "1.2" "presence-room",
    .incoming 5000 2 2 ⟨"app", "key"⟩ "node-c" "presence-room" (.roster [⟨"bob", none⟩])]

theorem viewsExact_sharedUsersRun :
    Always Node.perform Node.ViewsExact (Node.new "node-a" true fun _ => some exampleApp)
      sharedUsersRun :=
  viewsExact_of_readsFresh "node-a" true (fun _ => some exampleApp) sharedUsersRun (by decide)

end Zatat
