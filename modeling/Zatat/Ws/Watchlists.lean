import Zatat.Channels.Counts
import Zatat.Scaling.OtherMessages
import Zatat.Scaling.PeerUsers
import Zatat.Ws.Pass

/-! # What a watcher has been told

A watcher learns who of its watchlist is online from the list it gets when it signs in
and from the events that follow. One operation at a time, the lemmas below say that the
last of these agrees with the users that have a socket here or are listed by a peer.
An answer of the peers' entries skips the expired ones, so wherever an operation asks,
it has to be assumed that no user is listed by expired entries only.
-/

namespace Zatat

open Function FiniteMap PeerUserSessions EventDispatcher.PeerKnowledge List Bool

def Frame.tells (userId : String) : Frame → Option Bool
  | .watchlistEvents name userIds =>
    if userId ∈ userIds then some (decide (name = "online")) else none
  | _ => none

def lastTold (frames : List Frame) (userId : String) : Bool :=
  frames.foldl (fun told frame => (frame.tells userId).getD told) false

theorem foldl_tells_const {frame : Frame} {frames : List Frame} (hAll : ∀ f ∈ frames, f = frame)
    (userId : String) (told : Bool) :
    frames.foldl (fun told frame => (frame.tells userId).getD told) told =
      if frames = [] then told else (frame.tells userId).getD told := by
  induction frames generalizing told with
  | nil => rfl
  | cons f frames ih =>
    rw [foldl_cons, ih (fun f hf => hAll f (mem_cons_of_mem _ hf)),
      hAll f mem_cons_self, if_neg (cons_ne_nil _ _)]
    cases frame.tells userId <;> simp

theorem mem_framesTo_text (a : String) (sockets : List String) (frame f : Frame)
    (appId socketId : String) :
    f ∈ framesTo (sockets.map fun s => ⟨a, s, .text frame⟩) appId socketId ↔
      f = frame ∧ a = appId ∧ socketId ∈ sockets := by
  rw [framesTo, mem_filterMap]
  constructor
  · rintro ⟨e, he, hFrame⟩
    obtain ⟨s, hs, rfl⟩ := mem_map.mp he
    obtain ⟨⟨ha, hSocket⟩, hItem⟩ := Option.ite_none_right_eq_some.mp hFrame
    exact ⟨(Option.some.inj hItem).symm, ha, hSocket ▸ hs⟩
  · rintro ⟨rfl, rfl, hs⟩
    exact ⟨⟨a, socketId, .text f⟩, mem_map.mpr ⟨socketId, hs, rfl⟩, if_pos ⟨rfl, rfl⟩⟩

namespace AppChannels

theorem mem_watchersOf (slot : AppChannels) (u watcher : String) :
    watcher ∈ slot.watchersOf u ↔ ∃ set, slot.watchers.lookup u = some set ∧ watcher ∈ set := by
  rw [watchersOf]
  cases slot.watchers.lookup u with
  | none => simp
  | some set => simp [AList.mem_keys]

end AppChannels

/-! ## A connection that watches -/

structure Watcher where
  userId : Option String
  watchlist : List String
  since : Nat

/-- The events about the watchlist reach the connection. -/
structure Watcher.Attends (slot : AppChannels) (socketId : String) (w : Watcher) : Prop where
  connected : socketId ∈ slot.connections
  signedIn : ∀ user, w.userId = some user → socketId ∈ slot.socketsOf user
  watches : ∀ u ∈ w.watchlist, ∃ user, w.userId = some user ∧ user ∈ slot.watchersOf u

theorem Watcher.Attends.mem_watcherConnections {slot : AppChannels} {s u : String} {w : Watcher}
    (h : w.Attends slot s) (hu : u ∈ w.watchlist) : s ∈ slot.watcherConnections u := by
  obtain ⟨user, hUser, hWatches⟩ := h.watches u hu
  exact mem_flatMap.mpr ⟨user, hWatches,
    mem_filter.mpr ⟨h.signedIn user hUser, decide_eq_true h.connected⟩⟩

namespace Node

def toldSince (node : Node) (appId socketId : String) (since : Nat) (userId : String) : Bool :=
  lastTold (framesTo (node.sent.drop since) appId socketId) userId

theorem toldSince_sendAll (node : Node) {since : Nat} (hSince : since ≤ node.sent.length)
    (a : String) (sockets : List String) (frame : Frame) (appId socketId u : String) :
    (node.setServer (node.sendAll a sockets (.text frame))).toldSince appId socketId since u =
      if a = appId ∧ socketId ∈ sockets then
        (frame.tells u).getD (node.toldSince appId socketId since u)
      else node.toldSince appId socketId since u := by
  have hSent : (node.setServer (node.sendAll a sockets (.text frame))).sent =
      node.sent ++ sockets.map fun s => ⟨a, s, .text frame⟩ := rfl
  rw [toldSince, hSent, drop_append_of_le_length hSince, framesTo_append, lastTold,
    foldl_append, foldl_tells_const fun f hf => ((mem_framesTo_text ..).mp hf).1]
  by_cases hTo : a = appId ∧ socketId ∈ sockets
  · rw [if_pos hTo, if_neg (ne_nil_of_mem ((mem_framesTo_text ..).mpr ⟨rfl, hTo⟩))]
    rfl
  · rw [if_neg hTo, if_pos]
    · rfl
    · exact eq_nil_iff_forall_not_mem.mpr fun f hf =>
        hTo ((mem_framesTo_text ..).mp hf).2

theorem toldSince_emitLocalWatchlistEvent (node : Node) {since : Nat}
    (hSince : since ≤ node.sent.length) (a u name appId socketId v : String) :
    (node.emitLocalWatchlistEvent a u name).toldSince appId socketId since v =
      if v = u ∧ a = appId ∧ socketId ∈ (node.apps a).watcherConnections u then
        decide (name = "online") else node.toldSince appId socketId since v := by
  rw [emitLocalWatchlistEvent, toldSince_sendAll node hSince, Frame.tells]
  by_cases hv : v = u
  · simp [hv]
  · simp [hv]

def gcSessions (node : Node) (now : Instant) : Node :=
  (node.sweepSessions now).1.foldl (gcSession now) (node.sweepSessions now).2

def onlineSomewhere (node : Node) (appId userId : String) : Bool :=
  (node.apps appId).isUserOnline userId ||
    node.dispatcher.peerUserSessions.listedExcluding appId userId none

end Node

/-- The watcher was last told the given state of each user on its watchlist. -/
structure Watcher.Informed (node : Node) (appId socketId : String) (w : Watcher)
    (online : String → Bool) : Prop where
  since : w.since ≤ node.sent.length
  told : ∀ u ∈ w.watchlist, node.toldSince appId socketId w.since u = online u

namespace Watcher

variable {app : Application} {node : Node} {s : String} {w : Watcher} {online : String → Bool}
  {u n : String} {after : Node} {now : Instant} {f : Node → Node} {payload : ScalingPayload}
  {records : List ExpiredSession}

theorem Informed.announce (h : w.Informed node app.id s online)
    (hAttends : w.Attends (node.apps app.id) s) {name : String} {quiet state : Bool}
    (hQuiet : quiet = true → online u = state)
    (hName : quiet = false → decide (name = "online") = state) :
    w.Informed (if quiet then node else node.emitLocalWatchlistEvent app.id u name) app.id s
      (update online u state) := by
  cases quiet with
  | true =>
    rw [if_pos rfl, ← hQuiet rfl, update_eq_self]
    exact h
  | false =>
    rw [if_neg Bool.false_ne_true]
    refine ⟨h.since.trans (length_append ▸ Nat.le_add_right ..), fun v hv => ?_⟩
    rw [node.toldSince_emitLocalWatchlistEvent h.since, update_apply, hName rfl]
    by_cases hvu : v = u
    · rw [if_pos ⟨hvu, rfl, hvu ▸ hAttends.mem_watcherConnections hv⟩, if_pos hvu]
    · rw [if_neg fun hTo => hvu hTo.1, if_neg hvu]
      exact h.told v hv

/-- The watcher hears of its watchlist, and what it heard last is so. -/
structure Follows (app : Application) (node : Node) (socketId : String) (w : Watcher) :
    Prop where
  attends : w.Attends (node.apps app.id) socketId
  informed : w.Informed node app.id socketId (node.onlineSomewhere app.id)

theorem Follows.congr (h : w.Follows app node s) (hApps : after.apps = node.apps)
    (hSent : after.sent = node.sent)
    (hSessions : after.dispatcher.peerUserSessions = node.dispatcher.peerUserSessions) :
    w.Follows app after s := by
  have hTruth : after.onlineSomewhere app.id = node.onlineSomewhere app.id := by
    funext u
    rw [Node.onlineSomewhere, hApps, hSessions, Node.onlineSomewhere]
  refine ⟨hApps ▸ h.attends, hSent ▸ h.informed.since, fun u hu => ?_⟩
  rw [hTruth, ← h.informed.told u hu, Node.toldSince, hSent, Node.toldSince]

theorem Follows.announce (node : Node) (online : String → Bool)
    (hInformed : w.Informed node app.id s online)
    (hAttends : w.Attends (node.apps app.id) s) (u name : String) (quiet state : Bool)
    (hQuiet : quiet = true → online u = state)
    (hName : quiet = false → decide (name = "online") = state)
    (hTruth : node.onlineSomewhere app.id = update online u state) :
    w.Follows app (if quiet then node else node.emitLocalWatchlistEvent app.id u name) s := by
  have hApps : (if quiet then node else node.emitLocalWatchlistEvent app.id u name).apps =
      node.apps := by
    split <;> rfl
  have hSame : (if quiet then node
      else node.emitLocalWatchlistEvent app.id u name).onlineSomewhere app.id =
        node.onlineSomewhere app.id := by
    split <;> rfl
  refine ⟨hApps ▸ hAttends, ?_⟩
  rw [hSame, hTruth]
  exact hInformed.announce hAttends hQuiet hName

/-! ## Messages of peers -/

/-- A user listed by another peer is listed by one that counts, or has a socket here. -/
def Vouched (node : Node) (now : Instant) (appId userId : String) (exceptNode : Option String) :
    Prop :=
  node.dispatcher.peerUserSessions.listedExcluding appId userId exceptNode = true →
    (node.apps appId).isUserOnline userId = true ∨
      node.dispatcher.peerUserSessions.isPresentExcluding now appId userId exceptNode = true

instance decidableVouched (node : Node) (now : Instant) (appId userId : String)
    (exceptNode : Option String) : Decidable (Vouched node now appId userId exceptNode) :=
  inferInstanceAs (Decidable (_ → _))

theorem Follows.withSessions (h : w.Follows app node s) (sessions : PeerUserSessions)
    (u name : String) (quiet listed : Bool)
    (hListed : (fun v => sessions.listedExcluding app.id v none) = update (fun v =>
        node.dispatcher.peerUserSessions.listedExcluding app.id v none) u listed)
    (hQuiet : quiet = true →
      node.onlineSomewhere app.id u = ((node.apps app.id).isUserOnline u || listed))
    (hName : quiet = false →
      decide (name = "online") = ((node.apps app.id).isUserOnline u || listed)) :
    w.Follows app (if quiet then node.withSessions sessions
      else (node.withSessions sessions).emitLocalWatchlistEvent app.id u name) s := by
  refine Follows.announce (node.withSessions sessions) (node.onlineSomewhere app.id)
    ⟨h.informed.since, h.informed.told⟩ h.attends u name quiet _ hQuiet hName ?_
  funext v
  have hv := congrFun hListed v
  have hSame : (node.withSessions sessions).onlineSomewhere app.id v =
      ((node.apps app.id).isUserOnline v || sessions.listedExcluding app.id v none) := rfl
  rw [update_apply] at hv ⊢
  rw [hSame, hv]
  split
  · rename_i hEq
    rw [hEq]
  · rfl

theorem Follows.userOnline (h : w.Follows app node s) (now : Instant) (n u : String) :
    w.Follows app (node.applyRemoteUserOnline now app n u) s := by
  rw [Node.applyRemoteUserOnline]
  refine h.withSessions _ u "online" _ true (PeerUserSessions.listed_add _ now app.id n u) ?_ ?_
  · intro hOnline
    rw [or_eq_true] at hOnline
    rw [Node.onlineSomewhere, Bool.or_true, or_eq_true]
    exact hOnline.imp_right fun hPresent =>
      listed_of_listedExcluding (listed_of_present hPresent)
  · exact fun _ => (Bool.or_true _).symm

theorem Follows.userOffline (h : w.Follows app node s)
    (hVouched : Vouched node now app.id u (some n)) :
    w.Follows app (node.applyRemoteUserOffline now app n u) s := by
  rw [Node.applyRemoteUserOffline]
  refine h.withSessions _ u "offline" _ _ (PeerUserSessions.listed_remove _ now app.id n u) ?_ ?_
  · intro hOnline
    rw [present_remove, or_eq_true] at hOnline
    have hOthers : (node.apps app.id).isUserOnline u = true ∨
        node.dispatcher.peerUserSessions.listedExcluding app.id u (some n) = true :=
      hOnline.imp_right listed_of_present
    have hSomewhere := hOthers.imp_right listed_of_listedExcluding
    rw [Node.onlineSomewhere, (or_eq_true _ _).mpr hSomewhere, (or_eq_true _ _).mpr hOthers]
  · intro hOffline
    rw [present_remove] at hOffline
    refine Eq.symm (eq_false_iff.mpr fun hOthers => ?_)
    rcases (or_eq_true _ _).mp hOthers with hHere | hListed
    · exact eq_false_iff.mp hOffline ((or_eq_true _ _).mpr (.inl hHere))
    · exact eq_false_iff.mp hOffline ((or_eq_true _ _).mpr (hVouched hListed))

theorem Follows.ifNewer (h : w.Follows app node s) (now : Instant) (origin key : String) (seq : Nat)
    (hNew : w.Follows app (node.accept now origin app key seq) s →
      w.Follows app (f (node.accept now origin app key seq)) s) :
    w.Follows app (node.ifNewer now origin app key seq f id) s := by
  have hAccept : w.Follows app (node.accept now origin app key seq) s :=
    h.congr rfl rfl (congrArg peerUserSessions (node.known_accept now origin app key seq))
  rw [Node.ifNewer]
  split
  · exact hNew hAccept
  · exact hAccept

/-- Only the users of one peer are other than before. -/
structure OnlyPeer (app : Application) (n : String) (node after : Node) : Prop where
  apps : after.apps = node.apps
  sessions : PeerUserSessions.SameBut app.id n node.dispatcher.peerUserSessions
    after.dispatcher.peerUserSessions

theorem OnlyPeer.vouched (h : OnlyPeer app n node after)
    (hVouched : Vouched node now app.id u (some n)) : Vouched after now app.id u (some n) := by
  rw [Vouched, h.apps, h.sessions.listed, h.sessions.present]
  exact hVouched

theorem OnlyPeer.trans {later : Node} (h : OnlyPeer app n node after)
    (h' : OnlyPeer app n after later) : OnlyPeer app n node later :=
  ⟨h'.apps.trans h.apps, h.sessions.trans h'.sessions⟩

theorem onlyPeer_accept (node : Node) (now : Instant) (n key : String) (seq : Nat) :
    OnlyPeer app n node (node.accept now n app key seq) := by
  have hSessions := congrArg peerUserSessions (node.known_accept now n app key seq)
  exact ⟨rfl, fun m _ => congrArg (fun sessions => sessions.entry app.id m) hSessions⟩

theorem OnlyPeer.ifNewer (now : Instant) (key : String) (seq : Nat)
    (hNew : ∀ node : Node, OnlyPeer app n node (f node)) :
    OnlyPeer app n node (node.ifNewer now n app key seq f id) := by
  rw [Node.ifNewer]
  split
  · exact (onlyPeer_accept node now n key seq).trans (hNew _)
  · exact onlyPeer_accept node now n key seq

theorem onlyPeer_userOnline (node : Node) (now : Instant) (n u : String) :
    OnlyPeer app n node (node.applyRemoteUserOnline now app n u) := by
  have hSessions := congrArg peerUserSessions (node.known_applyRemoteUserOnline now app n u)
  refine ⟨?_, ?_⟩
  · rw [Node.applyRemoteUserOnline]
    split <;> rfl
  · intro m hm
    refine (congrArg (fun sessions => sessions.entry app.id m) hSessions).trans ?_
    exact sameBut_add _ now app.id n u m hm

theorem onlyPeer_userOffline (node : Node) (now : Instant) (n u : String) :
    OnlyPeer app n node (node.applyRemoteUserOffline now app n u) := by
  have hSessions := congrArg peerUserSessions (node.known_applyRemoteUserOffline now app n u)
  refine ⟨?_, ?_⟩
  · rw [Node.applyRemoteUserOffline]
    split <;> rfl
  · intro m hm
    refine (congrArg (fun sessions => sessions.entry app.id m) hSessions).trans ?_
    exact sameBut_remove _ now app.id n u m hm

theorem Follows.userSessionSnapshot (h : w.Follows app node s) {userIds : List String}
    (hVouched : ∀ u ∈ node.dispatcher.peerUserSessions.usersOf app.id n, u ∉ userIds →
      Vouched node now app.id u (some n)) (seq : Nat) :
    w.Follows app (node.applyRemoteUserSessionSnapshot now app n userIds seq) s := by
  let touched := node.withSessions (node.dispatcher.peerUserSessions.touch now app.id n)
  let Keeps (after : Node) : Prop := w.Follows app after s ∧ OnlyPeer app n node after
  have hTouched : Keeps touched := by
    refine ⟨⟨h.attends, h.informed.since, fun u hu => (h.informed.told u hu).trans ?_⟩, rfl,
      sameBut_touch _ now app.id n⟩
    exact congrArg (fun listed => (node.apps app.id).isUserOnline u || listed)
      (listed_touch _ now app.id n u).symm
  -- the other peers' entries stay through both walks, so they vouch as they did before
  refine (List.foldlRecOn (motive := Keeps) _ _
    (List.foldlRecOn (motive := Keeps) _ _ hTouched ?_) ?_).1
  · rintro after ⟨hAfter, hOnly⟩ u -
    exact ⟨hAfter.ifNewer now n _ seq fun hAccept => hAccept.userOnline now n u,
      hOnly.trans (.ifNewer now _ seq fun node => onlyPeer_userOnline node now n u)⟩
  · rintro after ⟨hAfter, hOnly⟩ u hu
    obtain ⟨hStored, hOmitted⟩ := mem_filter.mp hu
    have hVouched := hVouched u ((mem_usersOf_touch ..).mp hStored) (by simpa using hOmitted)
    refine ⟨hAfter.ifNewer now n _ seq fun hAccept => hAccept.userOffline ?_,
      hOnly.trans (.ifNewer now _ seq fun node => onlyPeer_userOffline node now n u)⟩
    exact (hOnly.trans (onlyPeer_accept after now n _ seq)).vouched hVouched

/-! ## Messages and sweeps -/

/-- What a message of a peer needs: the users it takes from the peer are vouched for. -/
def MessageVouched (node : Node) (now : Instant) (appId : String) : ScalingPayload → Prop
  | .UserOffline n u => Vouched node now appId u (some n)
  | .UserSessionSnapshot n userIds =>
    ∀ u ∈ node.dispatcher.peerUserSessions.usersOf appId n, u ∉ userIds →
      Vouched node now appId u (some n)
  | _ => True

instance decidableMessageVouched (node : Node) (now : Instant) (appId : String) :
    (payload : ScalingPayload) → Decidable (MessageVouched node now appId payload)
  | .UserOffline n u => inferInstanceAs (Decidable (Vouched node now appId u (some n)))
  | .UserSessionSnapshot n userIds => inferInstanceAs
      (Decidable (∀ u ∈ node.dispatcher.peerUserSessions.usersOf appId n, u ∉ userIds →
        Vouched node now appId u (some n)))
  | .Message .. | .ClientEvent .. | .Terminate .. | .TerminateUser .. | .PresenceSnapshot ..
  | .UserEvent .. | .MetricsRequest .. | .MetricsResponse .. | .MemberAdded ..
  | .MemberRemoved .. | .SubscriptionCount .. | .UserOnline .. | .ChannelCountSnapshot .. =>
    inferInstanceAs (Decidable True)

theorem Follows.handlePayload (h : w.Follows app node s) (hSession : payload.isSession = true)
    (hVouched : MessageVouched node now app.id payload) (seq : Nat) :
    w.Follows app (node.handlePayload now app seq payload) s := by
  refine Node.handlePayload_of_applied (P := fun after => w.Follows app after s) node now app seq
    payload h ?_
  cases payload with
  | UserOnline n u =>
    rw [Node.applyPayload]
    exact h.ifNewer now n _ seq fun hAccept => hAccept.userOnline now n u
  | UserOffline n u =>
    rw [Node.applyPayload]
    exact h.ifNewer now n _ seq fun hAccept =>
      hAccept.userOffline ((onlyPeer_accept node now n _ seq).vouched hVouched)
  | UserSessionSnapshot n userIds => exact h.userSessionSnapshot hVouched seq
  | _ => cases hSession

theorem Follows.handleIncoming (h : w.Follows app node s) (hApp : node.config app.id = some app)
    (hSession : payload.isSession = true) (hVouched : MessageVouched node now app.id payload)
    (seq : Nat) :
    w.Follows app (node.handleIncoming now (EventDispatcher.envelope app seq payload)) s := by
  obtain ⟨hApps, hSent, -⟩ := node.seePeer_same now payload
  have hSessions : (node.seePeer now payload).dispatcher.peerUserSessions =
      node.dispatcher.peerUserSessions := by
    rw [Node.seePeer]
    split
    · split <;> rfl
    · rfl
  have hSeen : MessageVouched (node.seePeer now payload) now app.id payload := by
    cases payload with
    | UserOffline n u =>
      rw [MessageVouched, Vouched, hApps, hSessions]
      exact hVouched
    | UserSessionSnapshot n userIds =>
      rw [MessageVouched, hSessions]
      intro u hStored hOmitted
      rw [Vouched, hApps, hSessions]
      exact hVouched u hStored hOmitted
    | _ => trivial
  rw [Node.handleIncoming_envelope hApp]
  exact (h.congr hApps hSent hSessions).handlePayload hSession hSeen seq

/-- In the middle of a sweep: what is wrong is still among the records. -/
structure Lags (node : Node) (appId socketId : String) (w : Watcher) (online : String → Bool)
    (records : List ExpiredSession) : Prop where
  since : w.since ≤ node.sent.length
  told : ∀ u ∈ w.watchlist, node.toldSince appId socketId w.since u = online u ∨
    online u = false ∧ ∃ n, ⟨appId, n, u⟩ ∈ records

theorem Lags.gcSession {x : ExpiredSession} (h : w.Lags node app.id s online (x :: records))
    (hTable : ∀ a app, node.config a = some app → app.id = a) (hApp : node.config app.id = some app)
    (hAttends : w.Attends (node.apps app.id) s)
    (hOnline : ∀ u, online u = ((node.apps app.id).isUserOnline u ||
      node.dispatcher.peerUserSessions.isPresentExcluding now app.id u none)) :
    w.Lags (Node.gcSession now node x) app.id s online records := by
  have hRest (u : String) (hu : u ∈ w.watchlist)
      (hx : x.appId = app.id → x.userId = u → online u = true) :
      node.toldSince app.id s w.since u = online u ∨
        online u = false ∧ ∃ n, ⟨app.id, n, u⟩ ∈ records := by
    refine (h.told u hu).imp_right ?_
    rintro ⟨hOff, n, hMem⟩
    refine ⟨hOff, n, (mem_cons.mp hMem).resolve_left ?_⟩
    rintro rfl
    rw [hx rfl rfl] at hOff
    cases hOff
  rw [Node.gcSession]
  cases hConfig : node.config x.appId with
  | none =>
    refine ⟨h.since, fun u hu => hRest u hu fun hId => ?_⟩
    rw [hId, hApp] at hConfig
    cases hConfig
  | some app' =>
    have hId : app'.id = x.appId := hTable x.appId app' hConfig
    dsimp only
    split
    · rename_i hOn
      refine ⟨h.since, fun u hu => hRest u hu fun hx hu => ?_⟩
      rw [hOnline, ← hu, ← hx, ← hOn, hId]
    · rename_i hOff
      refine ⟨h.since.trans (length_append ▸ Nat.le_add_right ..), fun u hu => ?_⟩
      have hTold := node.toldSince_emitLocalWatchlistEvent h.since app'.id x.userId "offline"
        app.id s u
      rw [Node.emitLocalWatchlistEvent] at hTold
      rw [hTold]
      split
      · rename_i hTo
        obtain ⟨rfl, hx, -⟩ := hTo
        refine .inl (Eq.symm ?_)
        rw [hOnline, ← hx]
        exact (not_eq_true _).mp (hId ▸ hOff)
      · rename_i hTo
        refine hRest u hu fun hx hu' => absurd ?_ hTo
        rw [hId, hx]
        exact ⟨hu'.symm, rfl, hu' ▸ hAttends.mem_watcherConnections hu⟩

theorem Lags.foldl (h : w.Lags node app.id s online records)
    (hTable : ∀ a app, node.config a = some app → app.id = a) (hApp : node.config app.id = some app)
    (hAttends : w.Attends (node.apps app.id) s)
    (hOnline : ∀ u, online u = ((node.apps app.id).isUserOnline u ||
      node.dispatcher.peerUserSessions.isPresentExcluding now app.id u none)) :
    w.Informed (records.foldl (Node.gcSession now) node) app.id s online := by
  induction records generalizing node with
  | nil => exact ⟨h.since, fun u hu => (h.told u hu).resolve_right fun ⟨_, _, hMem⟩ => nomatch hMem⟩
  | cons x records ih =>
    have hNext := h.gcSession hTable hApp hAttends hOnline
    rw [Node.gcSession_eq_emit] at hNext
    rw [foldl_cons, Node.gcSession_eq_emit]
    exact ih hNext hTable hApp hAttends hOnline

theorem Follows.gcSessions (h : w.Follows app node s) (now : Instant)
    (hTable : ∀ a app, node.config a = some app → app.id = a)
    (hApp : node.config app.id = some app) : w.Follows app (node.gcSessions now) s := by
  let sessions := node.dispatcher.peerUserSessions
  let online (u : String) : Bool := (node.apps app.id).isUserOnline u ||
    sessions.isPresentExcluding now app.id u none
  have hLags : w.Lags (node.sweepSessions now).2 app.id s online (node.sweepSessions now).1 := by
    refine ⟨h.informed.since, fun u hu => ?_⟩
    have hTold : (node.sweepSessions now).2.toldSince app.id s w.since u =
        ((node.apps app.id).isUserOnline u || sessions.listedExcluding app.id u none) :=
      h.informed.told u hu
    rw [hTold]
    cases hHere : (node.apps app.id).isUserOnline u with
    | true => exact .inl (by simp only [online, hHere, Bool.true_or])
    | false =>
      have hOnline : online u = sessions.isPresentExcluding now app.id u none := by
        simp only [online, hHere, Bool.false_or]
      rw [hOnline, Bool.false_or]
      cases hPresent : sessions.isPresentExcluding now app.id u none with
      | true => exact .inl (listed_of_present hPresent)
      | false =>
        cases hListed : sessions.listedExcluding app.id u none with
        | false => exact .inl rfl
        | true => exact .inr ⟨rfl, exists_expired hListed hPresent⟩
  have hInformed : w.Informed (node.gcSessions now) app.id s online := by
    refine hLags.foldl hTable hApp h.attends fun u => ?_
    exact congrArg (fun present => (node.apps app.id).isUserOnline u || present)
      (isPresentExcluding_gcExpired sessions now app.id u none).symm
  have hSwept : node.gcSessions now = (node.sweepSessions now).2.emit _ [] :=
    node.foldl_gcSession now
  have hTruth : (node.gcSessions now).onlineSomewhere app.id = online := by
    funext u
    rw [hSwept]
    exact congrArg (fun listed => (node.apps app.id).isUserOnline u || listed)
      (listed_gcExpired sessions now app.id u)
  refine ⟨?_, hTruth ▸ hInformed⟩
  rw [hSwept]
  exact h.attends

end Watcher

end Zatat
