import Zatat.Ws.Operations
import Zatat.Ws.Sweep

/-! # Views across the expiry of peers

Time passes between operations, so a stored roster can be past its time to live
and not yet dropped. A sweep drops such rosters in one step and announces their
users in later ones; until then the users are pending.
-/

namespace Zatat.Expiry

open FiniteMap Transition Node Option

structure State where
  node : Node
  pending : List ExpiredMember
  clock : Instant

inductive Label where
  | op (op : Op)
  | reap (now : Instant)
  | announce (now : Instant)

def State.new (nodeId : String) (scaling : Bool) (config : String → Option Application) : State :=
  ⟨Node.new nodeId scaling config, [], 0⟩

def opTime : Op → Instant
  | .join now .. => now
  | .leave now .. => now
  | .incoming now .. => now

def Configured (node : Node) : Op → Prop
  | .join _ app .. => node.config app.id = some app
  | .leave _ app .. => node.config app.id = some app
  | .incoming .. => True

instance (node : Node) : (op : Op) → Decidable (Configured node op)
  | .join _ app .. => inferInstanceAs (Decidable (node.config app.id = some app))
  | .leave _ app .. => inferInstanceAs (Decidable (node.config app.id = some app))
  | .incoming .. => inferInstanceAs (Decidable True)

def step (σ : State) : Label → Option State
  | .op op =>
    if σ.clock ≤ opTime op ∧ Configured σ.node op then
      (σ.node.perform op).map fun node => ⟨node, σ.pending, opTime op⟩
    else none
  | .reap now =>
    if σ.clock ≤ now ∧ σ.pending = [] then
      some ⟨(σ.node.sweepMembers now).2, (σ.node.sweepMembers now).1, now⟩
    else none
  | .announce now =>
    match σ.pending with
    | [] => none
    | m :: rest => if σ.clock ≤ now then some ⟨Node.gcMember now σ.node m, rest, now⟩ else none

/-- If the user of the record is listed, a roster within its time to live does so. -/
def AnnounceAgrees (node : Node) (now : Instant) (m : ExpiredMember) : Prop :=
  ¬ node.HasUser m.appId m.channel m.userId →
    (∃ n, node.presenceCache.Lists m.appId m.channel n m.userId) →
    ∃ n, node.presenceCache.ListsLive now m.appId m.channel n m.userId

def Agrees (σ : State) : Label → Prop
  | .op op => σ.node.Agrees op
  | .reap _ => True
  | .announce now => ∀ m ∈ σ.pending.head?, AnnounceAgrees σ.node now m

def Settled (σ : State) : Prop :=
  σ.pending = [] ∧ ∀ a c, σ.node.FreshRosters σ.clock a c

/-! ## The invariant -/

def Pending (records : List ExpiredMember) (a c v : String) : Prop := ⟨a, c, v⟩ ∈ records

structure Inv (σ : State) : Prop where
  faithful : σ.node.Faithful (Pending σ.pending)
  configured : ∀ a c s, (σ.node.memberOf a c s).isSome = true → ∃ app, σ.node.config a = some app
  table : ∀ id app, σ.node.config id = some app → app.id = id

theorem inv_new (nodeId : String) (scaling : Bool) {config : String → Option Application}
    (hTable : ∀ id app, config id = some app → app.id = id) :
    Inv (State.new nodeId scaling config) where
  faithful := new_faithful nodeId scaling config _
  configured a c s hMember := by cases hMember
  table := hTable

theorem memberOf_perform {node node' : Node} {op : Op} (h : node.perform op = some node')
    (hConfigured : Configured node op) {a c s : String}
    (hMember : (node'.memberOf a c s).isSome = true) :
    (node.memberOf a c s).isSome = true ∨ ∃ app, node.config a = some app := by
  cases op with
  | join now app socketId channel presence =>
    rw [perform] at h
    split at h <;> cases h
    rw [memberOf_handleSubscribe] at hMember
    split at hMember
    · rename_i hJoiner
      rw [hJoiner.1.1]
      exact Or.inr ⟨app, hConfigured⟩
    · exact Or.inl hMember
  | leave now app socketId channel =>
    cases h
    rw [memberOf_leaveChannel] at hMember
    split at hMember
    · cases hMember
    · exact Or.inl hMember
  | incoming now version seq app origin channel update =>
    cases h
    refine Or.inl ?_
    cases hAccept : node.accepting now ⟨version, seq, app, update.payload origin channel⟩ origin
      channel with
    | none =>
      have hApps := (node.handleIncoming_ignored now _ origin channel update rfl hAccept).1
      rw [memberOf, hApps] at hMember
      exact hMember
    | some settings =>
      rw [node.handleIncoming_accepted now _ origin channel update rfl hAccept] at hMember
      exact hMember

theorem Inv.op {σ : State} (h : Inv σ) {op : Op} {node : Node}
    (hPerform : σ.node.perform op = some node) (hConfigured : Configured σ.node op)
    (hAgrees : σ.node.Agrees op) (now : Instant) : Inv ⟨node, σ.pending, now⟩ where
  faithful := h.faithful.perform op hAgrees hPerform
  configured a c s hMember := by
    dsimp only at hMember ⊢
    rw [config_perform hPerform]
    rcases memberOf_perform hPerform hConfigured hMember with hBefore | hApp
    · exact h.configured a c s hBefore
    · exact hApp
  table := by
    dsimp only
    rw [config_perform hPerform]
    exact h.table

theorem Inv.reap {σ : State} (h : Inv σ) (hIdle : σ.pending = []) (now : Instant) :
    Inv ⟨(σ.node.sweepMembers now).2, (σ.node.sweepMembers now).1, now⟩ where
  faithful := by
    refine ⟨h.faithful.wellFormed, fun a c s v hKind hMember => ?_⟩
    have hBefore := h.faithful.shows a c s v hKind hMember
    have hRoster (n : String) : (σ.node.sweepMembers now).2.presenceCache.roster a c n =
        (σ.node.presenceCache.roster a c n).filter fun peer => !peer.expired now :=
      PresenceCache.roster_gcExpired ..
    have hRecord := PresenceCache.mem_gcExpired σ.node.presenceCache now ⟨a, c, v⟩
    have hIn (hAfter : (σ.node.sweepMembers now).2.Present a c v) : σ.node.Present a c v := by
      refine hAfter.imp_right ?_
      rintro ⟨n, peer, hPeer, hUser⟩
      exact ⟨n, peer, (filter_eq_some_iff.mp ((hRoster n).symm.trans hPeer)).1, hUser⟩
    refine ⟨fun hAfter => hBefore.1 (hIn hAfter), fun hShown => ?_⟩
    rcases hBefore.2 hShown with (hUser | ⟨n, peer, hPeer, hUser⟩) | hPending
    · exact Or.inl (Or.inl hUser)
    · cases hExpired : peer.expired now with
      | true => exact Or.inr (hRecord.mpr ⟨n, peer, hPeer, hExpired, hUser⟩)
      | false =>
        refine Or.inl (Or.inr ⟨n, peer, (hRoster n).trans ?_, hUser⟩)
        rw [hPeer, filter_some, hExpired]
        rfl
    · rw [Pending, hIdle] at hPending
      cases hPending
  configured := h.configured
  table := h.table

theorem Inv.announce {σ : State} (h : Inv σ) {m : ExpiredMember} {rest : List ExpiredMember}
    (hPending : σ.pending = m :: rest) {now : Instant} (hAgrees : AnnounceAgrees σ.node now m) :
    Inv ⟨gcMember now σ.node m, rest, now⟩ := by
  obtain ⟨hKnown, hConfig, hApps⟩ := gcMember_same now σ.node m
  have hCache : (gcMember now σ.node m).presenceCache = σ.node.presenceCache :=
    congrArg EventDispatcher.PeerKnowledge.presenceCache hKnown
  refine ⟨⟨by rw [Node.WellFormed, hApps]; exact h.faithful.wellFormed,
    fun a c s v hKind hMember => ?_⟩, ?_, by rw [hConfig]; exact h.table⟩
  · dsimp only at hMember ⊢
    rw [memberOf, hApps] at hMember
    have hBefore := h.faithful.shows a c s v hKind hMember
    rw [hPending] at hBefore
    have hSame : (gcMember now σ.node m).Present a c v ↔ σ.node.Present a c v := by
      rw [Node.Present, Node.HasUser, hApps, hCache]
      rfl
    refine Shows.congr ?_ hSame
    -- the record itself is no longer pending, every other one still is
    by_cases hRecord : (⟨a, c, v⟩ : ExpiredMember) = m
    · subst hRecord
      obtain ⟨app, hApp⟩ := h.configured a c s hMember
      have hId := h.table a app hApp
      have hFound : ∃ ch, σ.node.findChannel a c = some ch := by
        obtain ⟨member, hStored⟩ := isSome_iff_exists.mp hMember
        obtain ⟨ch, hFind, -⟩ := bind_eq_some_iff.mp hStored
        exact ⟨ch, hFind⟩
      obtain ⟨ch, hFind⟩ := hFound
      have hLocal := presentIn_findChannel h.faithful.wellFormed a c v
      rw [hFind, Server.presentIn] at hLocal
      cases hVanished : σ.node.vanishedFrom now ⟨a, c, v⟩ with
      | none =>
        rw [gcMember_none hVanished]
        suffices hPresent : σ.node.Present a c v from
          ⟨hBefore.1, fun _ => Or.inl hPresent⟩
        by_contra hAbsent
        rw [Node.Present, not_or, not_exists, ← hLocal, Bool.not_eq_true] at hAbsent
        have hSome : σ.node.vanishedFrom now ⟨a, c, v⟩ = some (app, ch) :=
          Node.vanishedFrom_eq_some.mpr ⟨hApp, hId.symm ▸ hFind,
            fun n hLive => hAbsent.2 n hLive.lists, hAbsent.1⟩
        rw [hVanished] at hSome
        cases hSome
      | some found =>
        obtain ⟨app', ch'⟩ := found
        obtain ⟨hApp', hFind', hNone, hUser⟩ := Node.vanishedFrom_eq_some.mp hVanished
        dsimp only at hApp' hFind' hNone hUser
        cases hApp.symm.trans hApp'
        rw [hId] at hFind'
        cases hFind.symm.trans hFind'
        have hMem : s ∈ ch.members := by
          rw [← AList.lookup_isSome, ← AppChannels.memberOf_of_find hFind s]
          exact hMember
        rw [heard_gcMember hVanished, if_pos ⟨⟨hId, rfl, hMem⟩, rfl⟩, Hearing.current_hear]
        refine Shows.of_absent (not_or.mpr ⟨fun hHas => ?_, fun hLists => ?_⟩)
        · rw [hLocal.mpr hHas] at hUser
          cases hUser
        · obtain ⟨n, hLive⟩ := hAgrees (fun hHas => by rw [hLocal.mpr hHas] at hUser; cases hUser)
            hLists
          exact hNone n hLive
    · have hHeard : heard c v (framesTo (gcMember now σ.node m).sent a s) =
          heard c v (framesTo σ.node.sent a s) := by
        cases hVanished : σ.node.vanishedFrom now m with
        | none => rw [gcMember_none hVanished]
        | some found =>
          obtain ⟨app, ch⟩ := found
          have hId := h.table m.appId app (Node.vanishedFrom_eq_some.mp hVanished).1
          rw [heard_gcMember hVanished, if_neg, Hearing.hear_nil]
          rintro ⟨⟨ha, hc, -⟩, hv⟩
          exact hRecord (by rw [← ha, ← hc, ← hv, hId])
      rw [hHeard]
      refine ⟨hBefore.1, fun hShown => (hBefore.2 hShown).imp_right fun hIn => ?_⟩
      exact (List.mem_cons.mp hIn).resolve_left hRecord
  · intro a c s hMember
    dsimp only at hMember ⊢
    rw [memberOf, hApps] at hMember
    rw [hConfig]
    exact h.configured a c s hMember

theorem inv_step (σ : State) (label : Label) (τ : State) (h : Inv σ) (hAgrees : Agrees σ label)
    (hStep : step σ label = some τ) : Inv τ := by
  cases label with
  | op op =>
    rw [step] at hStep
    split at hStep
    · rename_i hGuard
      obtain ⟨node, hPerform, rfl⟩ := map_eq_some_iff.mp hStep
      exact h.op hPerform hGuard.2 hAgrees (opTime op)
    · cases hStep
  | reap now =>
    rw [step] at hStep
    split at hStep <;> cases hStep
    rename_i hGuard
    exact h.reap hGuard.2 now
  | announce now =>
    rw [step] at hStep
    cases hPending : σ.pending with
    | nil =>
      rw [hPending] at hStep
      cases hStep
    | cons m rest =>
      rw [hPending] at hStep
      dsimp only at hStep
      split at hStep <;> cases hStep
      exact h.announce hPending (hAgrees m (by rw [hPending]; rfl))

/-- As long as no decision depends on rosters past their time to live, the views
are exact whenever no sweep is in progress and all rosters are live again. -/
theorem viewsExact_of_agrees (nodeId : String) (scaling : Bool)
    (config : String → Option Application)
    (hTable : ∀ id app, config id = some app → app.id = id) (run : List Label)
    (hAgrees : EachStep step Agrees (State.new nodeId scaling config) run) :
    Always step (fun σ => Settled σ → σ.node.ViewsExact) (State.new nodeId scaling config) run := by
  refine (always_of_step inv_step (inv_new nodeId scaling hTable) hAgrees).mono
    fun σ h hSettled => ?_
  refine h.faithful.viewsExact fun a c u hPending => ?_
  rw [Pending, hSettled.1] at hPending
  cases hPending

def ReadsFresh (σ : State) : Label → Prop
  | .op op => σ.node.ReadsFresh op
  | .reap _ => True
  | .announce now => ∀ m ∈ σ.pending.head?, σ.node.FreshRosters now m.appId m.channel

instance (σ : State) : (label : Label) → Decidable (ReadsFresh σ label)
  | .op op => inferInstanceAs (Decidable (σ.node.ReadsFresh op))
  | .reap _ => inferInstanceAs (Decidable True)
  | .announce now => inferInstanceAs (Decidable
    (∀ m ∈ σ.pending.head?, σ.node.FreshRosters now m.appId m.channel))

theorem ReadsFresh.agrees {σ : State} {label : Label} (h : ReadsFresh σ label) :
    Agrees σ label := by
  cases label with
  | op op => exact Node.ReadsFresh.agrees h
  | reap now => trivial
  | announce now =>
    rintro m hm - ⟨n, hLists⟩
    exact ⟨n, (h m hm).listsLive hLists⟩

/-- A peer falls silent, its roster is swept, and its user is announced as gone. -/
def sweptPeerRun : List Label :=
  [.op (.incoming 0 2 1 ⟨"app", "key"⟩ "node-b" "presence-room" (.roster [⟨"alice", none⟩])),
    .op (.join (Duration.fromSecs 1) exampleApp "1.1" "presence-room" (some ⟨"bob", none⟩)),
    .reap (Duration.fromSecs 16), .announce (Duration.fromSecs 17)]

theorem viewsExact_sweptPeerRun :
    Always step (fun σ => Settled σ → σ.node.ViewsExact) (State.new "node-a" true exampleTable)
      sweptPeerRun :=
  viewsExact_of_agrees "node-a" true exampleTable exampleTable_ids sweptPeerRun
    (EachStep.mono (fun _ _ => ReadsFresh.agrees)
      (by decide : EachStep step ReadsFresh (State.new "node-a" true exampleTable) sweptPeerRun))

/-- A peer lists a user and falls silent for longer than the time to live; a
socket joins; the peer is heard again before any sweep. -/
def silentPeerRun : List Label :=
  [.op (.incoming 0 2 1 ⟨"app", "key"⟩ "node-b" "presence-room" (.roster [⟨"alice", none⟩])),
    .op (.join (Duration.fromSecs 16) exampleApp "1.1" "presence-room" (some ⟨"bob", none⟩)),
    .op (.incoming (Duration.fromSecs 17) 2 2 ⟨"app", "key"⟩ "node-b" "presence-room"
      (.roster [⟨"alice", none⟩]))]

theorem silentPeerRun_result :
    (exec step (State.new "node-a" true exampleTable) silentPeerRun).map (fun σ =>
      (σ.pending.isEmpty, σ.node.presenceCache.allFresh σ.clock,
        (σ.node.memberOf "app" "presence-room" "1.1").isSome,
        viewOf "presence-room" (framesTo σ.node.sent "app" "1.1"),
        σ.node.presenceCache.announcedUserIds "app" "presence-room")) =
      some (true, true, true, {"bob"}, ["alice"]) := by decide

/-- The peer's user is present, all is fresh, and the subscriber never hears of
the user. -/
theorem silentPeerRun_hides_user :
    ∃ σ, exec step (State.new "node-a" true exampleTable) silentPeerRun = some σ ∧ Settled σ ∧
      viewOf "presence-room" (framesTo σ.node.sent "app" "1.1") = {"bob"} ∧
      (∃ n, σ.node.presenceCache.Lists "app" "presence-room" n "alice") ∧ ¬ σ.node.ViewsExact := by
  obtain ⟨σ, hRun, hResult⟩ := Option.map_eq_some_iff.mp silentPeerRun_result
  simp only [Prod.mk.injEq, List.isEmpty_iff] at hResult
  obtain ⟨hPending, hFresh, hMember, hView, hListed⟩ := hResult
  have hAlice : ∃ n, σ.node.presenceCache.Lists "app" "presence-room" n "alice" := by
    rw [← PresenceCache.mem_announcedUserIds, hListed]
    decide
  refine ⟨σ, hRun, ⟨hPending, fun a c n peer hPeer => ?_⟩, hView, hAlice, fun hExact => ?_⟩
  · exact (PresenceCache.allFresh_iff ..).mp hFresh a c n peer hPeer
  · have hShown := (hExact "app" "presence-room" "1.1" (by decide) hMember "alice").mpr
      (Or.inr hAlice)
    rw [hView] at hShown
    revert hShown
    decide

end Zatat.Expiry
