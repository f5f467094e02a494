import Zatat.Ws.Watching

/-! # Watchers over whole runs

Sign-ins and disconnects on one node, the messages of its peers about their users, the
sweeps of expired entries and the passing of time, in any order. The answers about peers
skip entries past their time to live while the entries are still stored, and a snapshot
that renews such an entry does not take its users as news. So a watcher is informed as
long as no user is listed by expired entries only when an operation asks.
-/

namespace Zatat

open FiniteMap Transition Option

namespace Watching

structure State where
  now : Instant
  node : Node
  watchers : Map String Watcher

inductive Label where
  | tick (elapsed : Duration)
  | connect (socketId : String)
  | signIn (socketId userId : String) (watchlist : Option (List String))
  | disconnect (socketId : String)
  | hear (seq : Nat) (payload : ScalingPayload)
  | sweep

def start (nodeId : String) (scaling : Bool) (config : String → Option Application) : State :=
  ⟨0, Node.new nodeId scaling config, ∅⟩

def connect (app : Application) (σ : State) (socketId : String) : State :=
  let (accepted, slot) := (σ.node.apps app.id).registerConnection app socketId
  { σ with
    node := σ.node.setApp app.id slot
    watchers := if accepted then σ.watchers.insert socketId ⟨none, [], σ.node.sent.length⟩
      else σ.watchers }

def signIn (app : Application) (σ : State) (socketId userId : String)
    (watchlist : Option (List String)) : State :=
  { σ with
    node := σ.node.signIn σ.now app socketId userId watchlist
    watchers := σ.watchers.insert socketId
      ⟨some userId, watchlist.getD [], σ.node.sent.length⟩ }

def disconnect (app : Application) (σ : State) (socketId : String) (w : Watcher) : State :=
  { σ with
    node := Inbound.cleanupConnection σ.node σ.now ⟨app, socketId, w.userId, w.watchlist, ∅⟩
    watchers := σ.watchers.erase socketId }

/-- A connection signs in once; only messages about users are looked at. -/
def step (app : Application) (σ : State) : Label → Option State
  | .tick elapsed => some { σ with now := σ.now + elapsed }
  | .connect socketId =>
    if socketId ∈ σ.watchers then none else some (connect app σ socketId)
  | .signIn socketId userId watchlist =>
    (σ.watchers.lookup socketId).bind fun w =>
      if w.userId = none then some (signIn app σ socketId userId watchlist) else none
  | .disconnect socketId => (σ.watchers.lookup socketId).map (disconnect app σ socketId)
  | .hear seq payload =>
    if payload.isSession then
      some { σ with
        node := σ.node.handleIncoming σ.now (EventDispatcher.envelope app seq payload) }
    else none
  | .sweep => some { σ with node := σ.node.gcSessions σ.now }

/-- No user that the step asks about is listed by expired entries only. -/
def Vouches (app : Application) (σ : State) : Label → Prop
  | .signIn _ userId watchlist => ∀ u ∈ watchlist.getD [], u ≠ userId →
      Watcher.Vouched σ.node σ.now app.id u none
  | .disconnect socketId => ∀ userId ∈ (σ.watchers.lookup socketId).bind Watcher.userId,
      Watcher.LeaverVouched σ.node σ.now app.id socketId userId
  | .hear _ payload => Watcher.MessageVouched σ.node σ.now app.id payload
  | _ => True

instance decidableVouches (app : Application) (σ : State) :
    (l : Label) → Decidable (Vouches app σ l)
  | .tick _ => inferInstanceAs (Decidable True)
  | .connect _ => inferInstanceAs (Decidable True)
  | .signIn _ userId watchlist => inferInstanceAs (Decidable (∀ u ∈ watchlist.getD [],
      u ≠ userId → Watcher.Vouched σ.node σ.now app.id u none))
  | .disconnect socketId => inferInstanceAs
      (Decidable (∀ userId ∈ (σ.watchers.lookup socketId).bind Watcher.userId,
        Watcher.LeaverVouched σ.node σ.now app.id socketId userId))
  | .hear _ payload => inferInstanceAs
      (Decidable (Watcher.MessageVouched σ.node σ.now app.id payload))
  | .sweep => inferInstanceAs (Decidable True)

def Fresh (app : Application) (σ : State) : Prop :=
  ∀ n e, σ.node.dispatcher.peerUserSessions.entry app.id n = some e → e.expired σ.now = false

/-- Each watcher was last told that a user it watches is online just if the user has a
socket here or is in the stored set of a peer. -/
def Informed (app : Application) (σ : State) : Prop :=
  ∀ s w, σ.watchers.lookup s = some w → ∀ u ∈ w.watchlist,
    (σ.node.toldSince app.id s w.since u = true ↔
      (σ.node.apps app.id).isUserOnline u = true ∨
        ∃ n, u ∈ σ.node.dispatcher.peerUserSessions.usersOf app.id n)

structure Invariant (app : Application) (σ : State) : Prop where
  table : ∀ a app, σ.node.config a = some app → app.id = a
  settings : σ.node.config app.id = some app
  follows : ∀ s w, σ.watchers.lookup s = some w → w.Follows app σ.node s

theorem Invariant.informed {app : Application} {σ : State} (h : Invariant app σ) :
    Informed app σ := by
  intro s w hw u hu
  rw [(h.follows s w hw).informed.told u hu, Node.onlineSomewhere, Bool.or_eq_true,
    PeerUserSessions.listedExcluding_iff]
  exact or_congr_right (exists_congr fun n => and_iff_right (some_ne_none n).symm)

theorem invariant_start {app : Application} {config : String → Option Application}
    (hTable : ∀ a app, config a = some app → app.id = a) (hApp : config app.id = some app)
    (nodeId : String) (scaling : Bool) : Invariant app (start nodeId scaling config) :=
  ⟨hTable, hApp, nofun⟩

section

variable {app : Application} {σ : State}

variable (h : Invariant app σ)

include h

theorem Invariant.after {after : State} (hConfig : after.node.config = σ.node.config)
    (hFollows : ∀ s w, after.watchers.lookup s = some w → w.Follows app after.node s) :
    Invariant app after :=
  ⟨hConfig ▸ h.table, hConfig ▸ h.settings, hFollows⟩

theorem Invariant.connect {socketId : String} (hNew : socketId ∉ σ.watchers) :
    Invariant app (connect app σ socketId) := by
  have hOld {s : String} {w : Watcher} (hw : σ.watchers.lookup s = some w) :
      w.Follows app (Watching.connect app σ socketId).node s := by
    have hs : s ≠ socketId := by
      rintro rfl
      exact hNew (mem_iff_lookup.mpr ⟨w, hw⟩)
    exact (h.follows s w hw).registerConnection hs
  refine h.after rfl fun s w hw => ?_
  rw [Watching.connect] at hw
  dsimp only at hw
  split at hw
  · rename_i hAccept
    rcases lookup_insert_cases hw with ⟨rfl, rfl⟩ | ⟨hs, hw⟩
    · have hSlot : (Watching.connect app σ s).node.apps app.id =
          ((σ.node.apps app.id).registerConnection app s).2 := Function.update_self ..
      have hConnected := ((σ.node.apps app.id).registerConnection_spec app s).2.2 hAccept
      exact ⟨⟨hSlot.symm ▸ hConnected, nofun, nofun⟩, Nat.le_refl _, nofun⟩
    · exact hOld hw
  · exact hOld hw

theorem Invariant.signIn {socketId : String} {w : Watcher}
    (hOpen : σ.watchers.lookup socketId = some w) {userId : String}
    {watchlist : Option (List String)}
    (hVouched : ∀ u ∈ watchlist.getD [], u ≠ userId → Watcher.Vouched σ.node σ.now app.id u none) :
    Invariant app (signIn app σ socketId userId watchlist) := by
  have hWithin : Node.Within (.moving fun _ _ _ => True) σ.node
      (σ.node.signIn σ.now app socketId userId watchlist) :=
    σ.node.within_signIn σ.now trivial socketId userId watchlist
  refine h.after hWithin.server.config fun s v hv => ?_
  rcases lookup_insert_cases hv with ⟨rfl, rfl⟩ | ⟨hs, hv⟩
  · exact Watcher.follows_signIn (h.follows s w hOpen).attends.connected hVouched
  · exact (h.follows s v hv).signIn hs

theorem Invariant.disconnect {socketId : String} {w : Watcher}
    (hVouched : ∀ userId, w.userId = some userId →
      Watcher.LeaverVouched σ.node σ.now app.id socketId userId) :
    Invariant app (disconnect app σ socketId w) := by
  have hWithin := Serving.within_cleanupConnection (f := .moving fun _ _ _ => True) σ.node σ.now
    ⟨app, socketId, w.userId, w.watchlist, ∅⟩ (fun _ => trivial) trivial
  refine h.after hWithin.server.config fun s v hv => ?_
  obtain ⟨hs, hv⟩ := lookup_erase_some hv
  exact (h.follows s v hv).cleanupConnection hs rfl rfl hVouched

theorem Invariant.step {l : Label} (hVouches : Vouches app σ l) {after : State}
    (hStep : step app σ l = some after) : Invariant app after := by
  cases l with
  | tick elapsed =>
    cases hStep
    exact ⟨h.table, h.settings, h.follows⟩
  | connect socketId =>
    obtain ⟨hNew, hStep⟩ := ite_none_left_eq_some.mp hStep
    cases hStep
    exact h.connect hNew
  | signIn socketId userId watchlist =>
    obtain ⟨w, hOpen, hStep⟩ := bind_eq_some_iff.mp hStep
    obtain ⟨-, hStep⟩ := ite_none_right_eq_some.mp hStep
    cases hStep
    exact h.signIn hOpen hVouches
  | disconnect socketId =>
    obtain ⟨w, hOpen, hStep⟩ := map_eq_some_iff.mp hStep
    cases hStep
    refine h.disconnect fun userId hUser => hVouches userId ?_
    rw [hOpen]
    exact hUser
  | hear seq payload =>
    obtain ⟨hSession, hStep⟩ := ite_none_right_eq_some.mp hStep
    cases hStep
    exact h.after (σ.node.handleIncoming_same σ.now _).1 fun s w hw =>
      (h.follows s w hw).handleIncoming h.settings hSession hVouches seq
  | sweep =>
    cases hStep
    refine h.after ?_ fun s w hw => (h.follows s w hw).gcSessions σ.now h.table h.settings
    exact congrArg (fun node => node.config) (σ.node.foldl_gcSession σ.now)

end

/-- Along every run whose steps all meet the condition, whenever every stored entry is
within its time to live, every watcher is informed. -/
theorem watchers_informed {config : String → Option Application} {app : Application}
    (hTable : ∀ a app, config a = some app → app.id = a) (hApp : config app.id = some app)
    (nodeId : String) (scaling : Bool) (run : List Label)
    (hRun : EachStep (step app) (Vouches app) (start nodeId scaling config) run) :
    Always (step app) (fun σ => Fresh app σ → Informed app σ) (start nodeId scaling config)
      run := by
  have hAlways := always_of_step (fun _ _ _ h hVouches hStep => Invariant.step h hVouches hStep)
    (invariant_start hTable hApp nodeId scaling) hRun
  exact hAlways.mono fun _ h _ => h.informed

/-! ## A user two peers list in turn, and one that comes back unnoticed -/

def exampleConfig (a : String) : Option Application :=
  if a = exampleApp.id then some exampleApp else none

/-- A peer's entry expires, the next sweep says so, and the peer's snapshot brings the
user back. -/
def exampleRun : List Label :=
  [.connect "1.1", .signIn "1.1" "walter" (some ["alice", "bob"]), .connect "1.2",
    .hear 1 (.UserOnline "b" "alice"), .tick (Duration.fromSecs 16), .sweep,
    .signIn "1.2" "bob" none, .hear 2 (.UserSessionSnapshot "b" ["alice"]),
    .hear 1 (.UserOnline "c" "alice"), .hear 3 (.UserOffline "b" "alice"), .disconnect "1.2"]

theorem exampleRun_informed :
    EachStep (step exampleApp) (Vouches exampleApp) (start "a" true exampleConfig) exampleRun ∧
      Always (step exampleApp) (fun σ => Fresh exampleApp σ → Informed exampleApp σ)
        (start "a" true exampleConfig) exampleRun := by
  have hRun : EachStep (step exampleApp) (Vouches exampleApp) (start "a" true exampleConfig)
      exampleRun := by
    decide
  exact ⟨hRun, watchers_informed exampleTable_ids rfl "a" true exampleRun hRun⟩

/-- The watcher signs in while the peer's entry is expired but not swept, so its first
list omits the user; the peer's snapshot then renews the entry without an event. -/
def renewedRun : List Label :=
  [.hear 1 (.UserOnline "b" "alice"), .connect "1.1", .tick (Duration.fromSecs 16),
    .signIn "1.1" "walter" (some ["alice"]), .tick (Duration.fromSecs 1),
    .hear 2 (.UserSessionSnapshot "b" ["alice"])]

theorem renewedRun_uninformed :
    ∃ σ, exec (step exampleApp) (start "a" true exampleConfig) renewedRun = some σ ∧
      Fresh exampleApp σ ∧ ¬ Informed exampleApp σ := by
  have hEnd : (exec (step exampleApp) (start "a" true exampleConfig) renewedRun).map (fun σ =>
      ((σ.node.dispatcher.peerUserSessions.nodesOf exampleApp.id).entries.all
          fun e => !e.2.expired σ.now,
        (σ.watchers.lookup "1.1").map fun w => (w.watchlist,
          σ.node.toldSince exampleApp.id "1.1" w.since "alice"),
        σ.node.dispatcher.peerUserSessions.usersOf exampleApp.id "b")) =
      some (true, some (["alice"], false), ["alice"]) := by
    decide
  obtain ⟨σ, hRun, hσ⟩ := Option.map_eq_some_iff.mp hEnd
  simp only [Prod.mk.injEq] at hσ
  obtain ⟨hFresh, hWatcher, hListed⟩ := hσ
  obtain ⟨w, hw, hTold⟩ := Option.map_eq_some_iff.mp hWatcher
  obtain ⟨hList, hTold⟩ := Prod.mk.inj hTold
  refine ⟨σ, hRun, fun n e hEntry => ?_, fun hInformed => ?_⟩
  · have hLive := List.all_eq_true.mp hFresh ⟨n, e⟩ (mem_entries_iff.mpr hEntry)
    exact (Bool.not_eq_true' _).mp hLive
  · have hAlice := (hInformed "1.1" w hw "alice" (hList ▸ List.mem_singleton_self _)).mpr
      (.inr ⟨"b", hListed ▸ List.mem_singleton_self _⟩)
    rw [hTold] at hAlice
    cases hAlice

end Watching

end Zatat
