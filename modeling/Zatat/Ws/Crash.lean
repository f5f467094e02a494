import Mathlib.Data.Fintype.Lattice
import Zatat.Scaling.OtherPeers
import Zatat.Ws.Pass

/-! # A node falls silent

The survivors of a fleet, from the moment on at which the last message of one
node was handled: they go on with their clients, take messages of each other,
send heartbeats and sweep. What the silent node held must be reported by one of
them once its entries are gone.
-/

namespace Zatat.Crash

open Function FiniteMap Transition Node PresenceCache PeerChannelCounts List Option Server

inductive Act where
  | join (now : Instant) (app : Application) (socketId channel : String)
      (presence : Option PresenceMember)
  | leave (now : Instant) (app : Application) (socketId channel : String)
  | incoming (now : Instant) (env : ScalingEnvelope)
  | heartbeat (app : Application)
  | gcChannels (now : Instant) (appId : String)
  | sweep (now : Instant)

def act (silent : String) (node : Node) : Act → Option Node
  | .join now app socketId channel presence =>
    some (node.handleSubscribe now app socketId channel presence)
  | .leave now app socketId channel => some (node.leaveChannel now app socketId channel)
  | .incoming now env =>
    if payloadNodeId env.payload = some silent then none else some (node.handleIncoming now env)
  | .heartbeat app => some (node.publishSnapshotsForApp app)
  | .gcChannels now appId =>
    some (node.setApp appId ((node.apps appId).gcEmptyCacheChannels now))
  | .sweep now => some (node.presenceCacheGc now)

variable {ι : Type} [DecidableEq ι]

def step (silent : String) (σ : ι → Node) (label : ι × Act) : Option (ι → Node) :=
  (act silent (σ label.1) label.2).map (update σ label.1)

/-! ## What the survivors know of the silent node -/

/-- As far as the survivors know, only the silent node has the user in the channel. -/
def OnlyHeldBy (silent a c u : String) (σ : ι → Node) : Prop :=
  ∀ i, Server.presentIn ((σ i).findChannel a c) u = false ∧
    ∀ n, (σ i).presenceCache.Lists a c n u → n = silent

/-- As far as the survivors know, only the silent node has anybody in the channel. -/
def OnlyOccupiedBy (silent a c : String) (σ : ι → Node) : Prop :=
  ∀ i, Server.emptyOrAbsent ((σ i).findChannel a c) = true ∧
    (∀ u, Server.presentIn ((σ i).findChannel a c) u = false) ∧
    (∀ n u, (σ i).presenceCache.Lists a c n u → n = silent) ∧
    ∀ n e, (σ i).dispatcher.peerChannelCounts.entry a c n = some e → e.count ≠ 0 → n = silent

def Occupied (silent a c : String) (node : Node) : Prop :=
  (∃ u, node.presenceCache.Lists a c silent u) ∨
    ∃ e, node.dispatcher.peerChannelCounts.entry a c silent = some e ∧ e.count ≠ 0

def Reaped (silent : String) (σ : ι → Node) : Prop :=
  ∀ i a c, (σ i).presenceCache.roster a c silent = none ∧
    (σ i).dispatcher.peerChannelCounts.entry a c silent = none

/-- The survivor `r` is able to report when it sweeps away an entry the silent
node has for the channel: it leads the fleet, and for a roster it also stores the
channel. -/
def Reporting (silent a c : String) (r : ι) (σ : ι → Node) : ι × Act → Prop
  | (i, .sweep now) => i = r →
    ((∃ peer, (σ r).presenceCache.roster a c silent = some peer ∧ peer.expired now = true) →
      (σ r).dispatcher.isFleetLeader now = true ∧ ((σ r).findChannel a c).isSome = true) ∧
    ((∃ e, (σ r).dispatcher.peerChannelCounts.entry a c silent = some e ∧ e.expired now = true) →
      (σ r).dispatcher.isFleetLeader now = true)
  | _ => True

/-! ## What a sweep reports -/

section Sweep

variable {silent a c u : String} {node : Node} {now : Instant} {app : Application}

variable {peer : PeerSnapshot} {m : ExpiredMember} {ch : Channel}

theorem not_listsLive_of_lists (hOnly : ∀ n, node.presenceCache.Lists a c n u → n = silent)
    (hPeer : node.presenceCache.roster a c silent = some peer) (hExpired : peer.expired now = true)
    (n : String) : ¬ node.presenceCache.ListsLive now a c n u := by
  intro hLive
  obtain ⟨peer', hPeer', hFresh, -⟩ := id hLive
  rw [hOnly n hLive.lists, hPeer] at hPeer'
  cases hPeer'
  rw [hExpired] at hFresh
  cases hFresh

theorem vanishedFrom_of_lists (hApp : node.config a = some app) (hId : app.id = a)
    (hFind : node.findChannel a c = some ch)
    (hLocal : presentIn (node.findChannel a c) u = false)
    (hOnly : ∀ n, node.presenceCache.Lists a c n u → n = silent)
    (hPeer : node.presenceCache.roster a c silent = some peer)
    (hExpired : peer.expired now = true) : node.vanishedFrom now ⟨a, c, u⟩ = some (app, ch) := by
  rw [hFind, presentIn] at hLocal
  exact Node.vanishedFrom_eq_some.mpr
    ⟨hApp, hId.symm ▸ hFind, not_listsLive_of_lists hOnly hPeer hExpired, hLocal⟩

theorem memberEvents_subset_passEvents (hRecord : m ∈ (node.presenceCache.gcExpired now).1) :
    node.memberEvents now m ⊆ node.passEvents now := fun _ hEvent =>
  mem_append_left _ (mem_flatMap.mpr ⟨m, hRecord, hEvent⟩)

theorem countEvents_subset_passEvents {x : ExpiredCount}
    (hRecord : x ∈ (node.dispatcher.peerChannelCounts.gcExpired now).1) :
    node.countEvents now x ⊆ node.passEvents now := fun _ hEvent =>
  mem_append_right _ (mem_flatMap.mpr ⟨x, hRecord, hEvent⟩)

theorem memberRemoved_mem_memberEvents (hFound : node.vanishedFrom now m = some (app, ch))
    (hLeader : node.dispatcher.isFleetLeader now = true) :
    (app.id, .MemberRemoved m.channel m.userId) ∈ node.memberEvents now m := by
  rw [memberEvents, hFound]
  dsimp only
  rw [if_pos hLeader]
  exact mem_cons_self

theorem channelVacated_mem_memberEvents (hFound : node.vanishedFrom now m = some (app, ch))
    (hLeader : node.dispatcher.isFleetLeader now = true)
    (hDeserted : node.deserted now m ch = true) :
    (app.id, .ChannelVacated m.channel) ∈ node.memberEvents now m := by
  rw [memberEvents, hFound]
  dsimp only
  rw [if_pos hLeader, if_pos hDeserted]
  exact mem_cons_of_mem _ mem_cons_self

theorem deserted_of_lists (hFind : node.findChannel a c = some ch)
    (hEmpty : emptyOrAbsent (node.findChannel a c) = true)
    (hOnly : ∀ n v, node.presenceCache.Lists a c n v → n = silent)
    (hPeer : node.presenceCache.roster a c silent = some peer)
    (hExpired : peer.expired now = true) : node.deserted now ⟨a, c, u⟩ ch = true := by
  rw [hFind, emptyOrAbsent] at hEmpty
  rw [deserted, hEmpty, Bool.true_and, List.isEmpty_iff, remoteMembersFor_eq_nil]
  intro n v hLive
  exact not_listsLive_of_lists (hOnly · v) hPeer hExpired n hLive

theorem channelVacated_mem_countEvents {e : CountEntry}
    (hApp : node.config a = some app) (hId : app.id = a)
    (hLeader : node.dispatcher.isFleetLeader now = true)
    (hEmpty : emptyOrAbsent (node.findChannel a c) = true)
    (hOnly : ∀ n e, node.dispatcher.peerChannelCounts.entry a c n = some e →
      e.count ≠ 0 → n = silent)
    (hEntry : node.dispatcher.peerChannelCounts.entry a c silent = some e)
    (hExpired : e.expired now = true) (hCount : e.count ≠ 0) :
    (a, .ChannelVacated c) ∈ node.countEvents now ⟨a, c, silent, e.count⟩ := by
  have hSum : node.dispatcher.peerChannelCounts.sum now a c = 0 := by
    apply PeerChannelCounts.sum_eq_zero
    intro n e' hEntry' hFresh
    by_contra hNonzero
    rw [hOnly n e' hEntry' hNonzero, hEntry] at hEntry'
    cases hEntry'
    rw [hExpired] at hFresh
    cases hFresh
  have hUnoccupied : node.unoccupied now app a c = true := by
    rw [unoccupied, hId, decide_eq_true hSum, Bool.and_true]
    exact hEmpty
  have hStale : decide (e.count > 0) = true := decide_eq_true (Nat.pos_of_ne_zero hCount)
  rw [countEvents]
  dsimp only
  rw [hApp]
  dsimp only
  rw [hStale, hUnoccupied, hLeader, hId]
  exact mem_singleton.mpr rfl

end Sweep

/-! ## Along a run -/

theorem act_cases {silent : String} {node node' : Node} {x : Act}
    (h : act silent node x = some node') :
    (∃ now, x = .sweep now ∧ node' = node.presenceCacheGc now) ∨
      Server.Spares silent node.toServer node'.toServer := by
  cases x with
  | join now app socketId channel presence =>
    cases h
    exact .inr (node.spares_handleSubscribe now app socketId channel presence)
  | leave now app socketId channel =>
    cases h
    exact .inr (node.spares_leaveChannel now app socketId channel)
  | incoming now env =>
    rw [act] at h
    split at h <;> cases h
    rename_i hOther
    exact .inr (node.spares_handleIncoming now hOther)
  | heartbeat app =>
    cases h
    exact .inr (node.spares_publishSnapshotsForApp app)
  | gcChannels now appId =>
    cases h
    exact .inr (.refl _)
  | sweep now => exact .inl ⟨now, rfl, (Option.some.inj h).symm⟩

/-- The survivor has kept its table, and the trace of the silent node is still
there or the event has been enqueued. -/
structure Told (start : Node) (event : String × WebhookEvent) (Trace : Node → Prop)
    (node : Node) : Prop where
  config : node.config = start.config
  webhooks : start.webhooks <+: node.webhooks
  told : Trace node ∨ event ∈ start.webhooksSince node

theorem mem_webhooksSince_mono {start node node' : Node} {event : String × WebhookEvent}
    (hStart : start.webhooks <+: node.webhooks) (hMore : node.webhooks <+: node'.webhooks)
    (hEvent : event ∈ start.webhooksSince node) : event ∈ start.webhooksSince node' := by
  obtain ⟨first, hFirst⟩ := hStart
  obtain ⟨more, hMore⟩ := hMore
  rw [webhooksSince, ← hFirst, drop_left] at hEvent
  rw [webhooksSince, ← hMore, ← hFirst, append_assoc, drop_left]
  exact mem_append_left _ hEvent

section Run

variable {silent a c : String} {r : ι} {event : String × WebhookEvent} {Trace : Node → Prop}
  {P : (ι → Node) → Prop}

theorem Told.sweep {start node : Node} (h : Told start event Trace node) {now : Instant}
    (hSweep : Trace node → Trace (node.presenceCacheGc now) ∨ event ∈ node.passEvents now) :
    Told start event Trace (node.presenceCacheGc now) := by
  have hLog : (node.presenceCacheGc now).webhooks = node.webhooks ++ node.passEvents now := by
    rw [presenceCacheGc_eq]
    rfl
  have hMore : node.webhooks <+: (node.presenceCacheGc now).webhooks := by
    rw [hLog]
    exact prefix_append ..
  refine ⟨?_, h.webhooks.trans hMore, ?_⟩
  · rw [← h.config, presenceCacheGc_eq]
    rfl
  rcases h.told with hTrace | hEvent
  · refine (hSweep hTrace).imp_right fun hNew => ?_
    obtain ⟨first, hFirst⟩ := h.webhooks
    rw [webhooksSince, hLog, ← hFirst, append_assoc, drop_left]
    exact mem_append_right _ hNew
  · exact .inr (mem_webhooksSince_mono h.webhooks hMore hEvent)

theorem Told.spares {start node node' : Node} (h : Told start event Trace node)
    (hSpares : Server.Spares silent node.toServer node'.toServer)
    (hKeeps : Trace node → Trace node') : Told start event Trace node' where
  config := hSpares.config.trans h.config
  webhooks := h.webhooks.trans hSpares.webhooks
  told := h.told.imp hKeeps (mem_webhooksSince_mono h.webhooks hSpares.webhooks)

/-- If every sweep of the survivor that drops the trace enqueues the event, a run
at whose end the trace is gone has enqueued it. -/
theorem reported_of_lost (Trace : Node → Prop) {σ₀ σ : ι → Node} {run : List (ι × Act)}
    (hRun : exec (step silent) σ₀ run = some σ)
    (hKeeps : ∀ node node' : Node, Server.Spares silent node.toServer node'.toServer →
      Trace node → Trace node') (hSweep : ∀ τ now, P τ → (τ r).config = (σ₀ r).config →
      Reporting silent a c r τ (r, .sweep now) → Trace (τ r) →
      Trace ((τ r).presenceCacheGc now) ∨ event ∈ (τ r).passEvents now)
    (hReports : EachStep (step silent) (Reporting silent a c r) σ₀ run)
    (hAlways : Always (step silent) P σ₀ run) (hTrace : Trace (σ₀ r)) (hLost : ¬ Trace (σ r)) :
    event ∈ (σ₀ r).webhooksSince (σ r) := by
  have hStep : ∀ τ label τ', Told (σ₀ r) event Trace (τ r) →
      (P τ ∧ Reporting silent a c r τ label) → step silent τ label = some τ' →
      Told (σ₀ r) event Trace (τ' r) := by
    rintro τ ⟨i, x⟩ τ' hTold ⟨hP, hReporting⟩ h
    obtain ⟨node', hAct, rfl⟩ := map_eq_some_iff.mp h
    by_cases hi : r = i
    · subst hi
      rw [update_self]
      rcases act_cases hAct with ⟨now, rfl, rfl⟩ | hSpares
      · exact hTold.sweep (hSweep τ now hP hTold.config hReporting)
      · exact hTold.spares hSpares (hKeeps _ _ hSpares)
    · rw [update_of_ne hi]
      exact hTold
  have hStart : Told (σ₀ r) event Trace (σ₀ r) := ⟨rfl, prefix_rfl, .inl hTrace⟩
  have hEnd := (always_of_step (I := fun τ : ι → Node => Told (σ₀ r) event Trace (τ r)) hStep
    hStart (hReports.and_always hAlways)).of_exec hRun
  exact hEnd.told.resolve_left hLost

end Run

section Departures

variable {silent a c : String} {r : ι} {app : Application} {σ₀ σ : ι → Node}
  {run : List (ι × Act)} {node : Node} {u : String} {e : CountEntry}

theorem lists_of_spares {node' : Node} (h : Server.Spares silent node.toServer node'.toServer)
    (hLists : node.presenceCache.Lists a c silent u) : node'.presenceCache.Lists a c silent u := by
  obtain ⟨peer, hPeer, hUser⟩ := hLists
  exact ⟨peer, (h.roster a c).trans hPeer, hUser⟩

theorem lists_presenceCacheGc (hLists : node.presenceCache.Lists a c silent u) (now : Instant) :
    (node.presenceCacheGc now).presenceCache.Lists a c silent u ∨
      ∃ peer, node.presenceCache.roster a c silent = some peer ∧ peer.expired now = true ∧
        (⟨a, c, u⟩ : ExpiredMember) ∈ (node.presenceCache.gcExpired now).1 := by
  obtain ⟨peer, hPeer, hUser⟩ := hLists
  cases hExpired : peer.expired now with
  | true =>
    exact .inr ⟨peer, hPeer, hExpired,
      (mem_gcExpired ..).mpr ⟨silent, peer, hPeer, hExpired, hUser⟩⟩
  | false =>
    have hAfter : (node.presenceCacheGc now).presenceCache =
        (node.presenceCache.gcExpired now).2 := by
      rw [presenceCacheGc_eq]
      rfl
    refine .inl ⟨peer, ?_, hUser⟩
    rw [hAfter, roster_gcExpired, hPeer, filter_some, hExpired]
    rfl

theorem counts_presenceCacheGc
    (hEntry : node.dispatcher.peerChannelCounts.entry a c silent = some e) (now : Instant) :
    (node.presenceCacheGc now).dispatcher.peerChannelCounts.entry a c silent = some e ∨
      e.expired now = true := by
  cases hExpired : e.expired now with
  | true => exact .inr rfl
  | false =>
    have hAfter : (node.presenceCacheGc now).dispatcher.peerChannelCounts =
        (node.dispatcher.peerChannelCounts.gcExpired now).2 := by
      rw [presenceCacheGc_eq]
      rfl
    refine .inl ?_
    rw [hAfter, entry_gcExpired, hEntry, filter_some, hExpired]
    rfl

section

variable (hRun : exec (step silent) σ₀ run = some σ) (hApp : (σ₀ r).config a = some app)
  (hReports : EachStep (step silent) (Reporting silent a c r) σ₀ run)
  (hReaped : Reaped silent σ) (hId : app.id = a)

include hRun hApp hReports hReaped

theorem reported_of_lists {P : (ι → Node) → Prop} {event : String × WebhookEvent}
    (hLists : (σ₀ r).presenceCache.Lists a c silent u) (hOnly : Always (step silent) P σ₀ run)
    (hEvent : ∀ (τ : ι → Node) now ch peer, P τ → (τ r).config a = some app →
      (τ r).findChannel a c = some ch → (τ r).presenceCache.roster a c silent = some peer →
      peer.expired now = true → (τ r).dispatcher.isFleetLeader now = true →
      event ∈ (τ r).memberEvents now ⟨a, c, u⟩) : event ∈ (σ₀ r).webhooksSince (σ r) := by
  refine reported_of_lost (fun node => node.presenceCache.Lists a c silent u) hRun
    (fun _ _ => lists_of_spares) ?_ hReports hOnly hLists ?_
  · intro τ now hHolds hConfig hReporting hTrace
    refine (lists_presenceCacheGc hTrace now).imp_right ?_
    rintro ⟨peer, hPeer, hExpired, hRecord⟩
    obtain ⟨hLeader, hStored⟩ := (hReporting rfl).1 ⟨peer, hPeer, hExpired⟩
    obtain ⟨ch, hFind⟩ := isSome_iff_exists.mp hStored
    exact memberEvents_subset_passEvents hRecord
      (hEvent τ now ch peer hHolds (hConfig ▸ hApp) hFind hPeer hExpired hLeader)
  · rintro ⟨peer, hPeer, -⟩
    rw [(hReaped r a c).1] at hPeer
    cases hPeer

include hId

theorem member_reported (hLists : (σ₀ r).presenceCache.Lists a c silent u)
    (hOnly : Always (step silent) (OnlyHeldBy silent a c u) σ₀ run) :
    (a, .MemberRemoved c u) ∈ (σ₀ r).webhooksSince (σ r) := by
  refine reported_of_lists hRun hApp hReports hReaped hLists hOnly ?_
  intro τ now ch peer hHeld hConfig hFind hPeer hExpired hLeader
  have hEvent := memberRemoved_mem_memberEvents
    (vanishedFrom_of_lists hConfig hId hFind (hHeld r).1 (hHeld r).2 hPeer hExpired) hLeader
  rwa [hId] at hEvent

theorem vacated_reported_of_lists (hLists : (σ₀ r).presenceCache.Lists a c silent u)
    (hOnly : Always (step silent) (OnlyOccupiedBy silent a c) σ₀ run) :
    (a, .ChannelVacated c) ∈ (σ₀ r).webhooksSince (σ r) := by
  refine reported_of_lists hRun hApp hReports hReaped hLists hOnly ?_
  intro τ now ch peer hOccupied hConfig hFind hPeer hExpired hLeader
  obtain ⟨hEmpty, hLocal, hRosters, -⟩ := hOccupied r
  have hEvent := channelVacated_mem_memberEvents
    (vanishedFrom_of_lists hConfig hId hFind (hLocal u) (fun n => hRosters n u) hPeer hExpired)
    hLeader (deserted_of_lists hFind hEmpty hRosters hPeer hExpired)
  rwa [hId] at hEvent

theorem vacated_reported_of_count (hCount : e.count ≠ 0)
    (hEntry : (σ₀ r).dispatcher.peerChannelCounts.entry a c silent = some e)
    (hOnly : Always (step silent) (OnlyOccupiedBy silent a c) σ₀ run) :
    (a, .ChannelVacated c) ∈ (σ₀ r).webhooksSince (σ r) := by
  refine reported_of_lost
    (fun node => node.dispatcher.peerChannelCounts.entry a c silent = some e) hRun
    (fun _ _ hSpares => (hSpares.count a c).trans) ?_ hReports hOnly hEntry ?_
  · intro τ now hOccupied hConfig hReporting hTrace
    refine (counts_presenceCacheGc hTrace now).imp_right fun hExpired => ?_
    have hLeader := (hReporting rfl).2 ⟨e, hTrace, hExpired⟩
    obtain ⟨hEmpty, -, -, hCounts⟩ := hOccupied r
    exact countEvents_subset_passEvents (mem_gcExpired_of_entry hTrace hExpired)
      (channelVacated_mem_countEvents (hConfig ▸ hApp) hId hLeader hEmpty hCounts hTrace hExpired
        hCount)
  · rw [(hReaped r a c).2]
    exact some_ne_none e ∘ Eq.symm

end

/-- Once every entry of the silent node is gone, what only it held has been
reported, if one survivor that knew of it was able to report when it swept. -/
theorem departures_reported (hRun : exec (step silent) σ₀ run = some σ)
    (hApp : (σ₀ r).config a = some app) (hId : app.id = a)
    (hReports : EachStep (step silent) (Reporting silent a c r) σ₀ run)
    (hReaped : Reaped silent σ) : (∀ u, (σ₀ r).presenceCache.Lists a c silent u →
      Always (step silent) (OnlyHeldBy silent a c u) σ₀ run →
      ∃ i, (a, .MemberRemoved c u) ∈ (σ₀ i).webhooksSince (σ i)) ∧
    (Occupied silent a c (σ₀ r) → Always (step silent) (OnlyOccupiedBy silent a c) σ₀ run →
      ∃ i, (a, .ChannelVacated c) ∈ (σ₀ i).webhooksSince (σ i)) := by
  constructor
  · intro u hLists hOnly
    exact ⟨r, member_reported hRun hApp hReports hReaped hId hLists hOnly⟩
  · rintro (⟨u, hLists⟩ | ⟨e, hEntry, hCount⟩) hOnly
    · exact ⟨r, vacated_reported_of_lists hRun hApp hReports hReaped hId hLists hOnly⟩
    · exact ⟨r, vacated_reported_of_count hRun hApp hReports hReaped hId hCount hEntry hOnly⟩

end Departures

variable {cache : PresenceCache} {u : String} {node : Node}

/-! ## Two fleets of two nodes -/

theorem roster_eq_none_of_isEmpty (h : cache.peers.entries.isEmpty = true) (a c n : String) :
    cache.roster a c n = none := by
  rw [roster, peersOf, entries_eq_nil_iff.mp (isEmpty_iff.mp h)]
  rfl

theorem entry_eq_none_of_isEmpty {counts : PeerChannelCounts}
    (h : counts.inner.entries.isEmpty = true) (a c n : String) : counts.entry a c n = none := by
  rw [entry, nodesOf, entries_eq_nil_iff.mp (isEmpty_iff.mp h)]
  rfl

theorem mem_keys_of_lists {a c n : String} (h : cache.Lists a c n u) :
    n ∈ (cache.peersOf a c).keys := by
  obtain ⟨peer, hPeer, -⟩ := h
  exact AList.mem_keys.mp (mem_iff_lookup.mpr ⟨peer, hPeer⟩)

def lastRoster : ScalingEnvelope :=
  ⟨2, 1, ⟨"app", "key"⟩, .PresenceSnapshot "node-b" "presence-room" [⟨"alice", none⟩]⟩

def outsider : Node := (Node.new "node-a" true exampleTable).handleIncoming 0 lastRoster

def insider : Node :=
  outsider.handleSubscribe (Duration.fromSecs 1) exampleApp "1.1" "presence-room"
    (some ⟨"bob", none⟩)

def lastSweep : List (Unit × Act) := [((), .sweep (Duration.fromSecs 16))]

def swept (node : Node) : Node := node.presenceCacheGc (Duration.fromSecs 16)

theorem step_lastSweep (node : Node) :
    step "node-b" (fun _ : Unit => node) ((), .sweep (Duration.fromSecs 16)) =
      some fun _ => swept node :=
  congrArg some (funext fun _ => update_self ..)

theorem exec_lastSweep (node : Node) :
    exec (step "node-b") (fun _ : Unit => node) lastSweep = some fun _ => swept node := by
  rw [lastSweep, exec, step_lastSweep]
  rfl

theorem always_lastSweep {P : (Unit → Node) → Prop} (hBefore : P fun _ => node)
    (hAfter : P fun _ => swept node) :
    Always (step "node-b") P (fun _ : Unit => node) lastSweep := by
  refine ⟨hBefore, fun σ hσ => ?_⟩
  rw [step_lastSweep] at hσ
  rw [← Option.some.inj hσ]
  exact hAfter

theorem reaped_of_isEmpty (hRosters : node.presenceCache.peers.entries.isEmpty = true)
    (hCounts : node.dispatcher.peerChannelCounts.inner.entries.isEmpty = true) :
    Reaped "node-b" (fun _ : Unit => node) := fun _ a c =>
  ⟨roster_eq_none_of_isEmpty hRosters a c _, entry_eq_none_of_isEmpty hCounts a c _⟩

theorem onlyHeldBy_of_keys
    (hLocal : Server.presentIn (node.findChannel "app" "presence-room") u = false)
    (hKeys : (node.presenceCache.peersOf "app" "presence-room").keys ⊆ ["node-b"]) :
    OnlyHeldBy "node-b" "app" "presence-room" u (fun _ : Unit => node) := fun _ =>
  ⟨hLocal, fun _ hLists => mem_singleton.mp (hKeys (mem_keys_of_lists hLists))⟩

theorem lists_of_announced (hUser : u ∈ node.presenceCache.announcedUserIds "app" "presence-room")
    (hKeys : (node.presenceCache.peersOf "app" "presence-room").keys ⊆ ["node-b"]) :
    node.presenceCache.Lists "app" "presence-room" "node-b" u := by
  obtain ⟨n, hLists⟩ := (mem_announcedUserIds ..).mp hUser
  exact mem_singleton.mp (hKeys (mem_keys_of_lists hLists)) ▸ hLists

theorem insider_reports_departure : ∃ i : Unit, ("app", .MemberRemoved "presence-room" "alice") ∈
      ((fun _ => insider) i).webhooksSince ((fun _ => swept insider) i) := by
  have hReports : EachStep (step "node-b") (Reporting "node-b" "app" "presence-room" ())
      (fun _ : Unit => insider) lastSweep := fun _ _ =>
    ⟨fun _ => ⟨fun _ => by decide, fun _ => by decide⟩, trivial⟩
  have hReaped : Reaped "node-b" (fun _ : Unit => swept insider) :=
    reaped_of_isEmpty (by decide) (by decide)
  have hLists : insider.presenceCache.Lists "app" "presence-room" "node-b" "alice" :=
    lists_of_announced (by decide) (by decide)
  have hOnly : Always (step "node-b") (OnlyHeldBy "node-b" "app" "presence-room" "alice")
      (fun _ : Unit => insider) lastSweep :=
    always_lastSweep (onlyHeldBy_of_keys (by decide) (by decide))
      (onlyHeldBy_of_keys (by decide) (by decide))
  have hApp : insider.config "app" = some exampleApp := rfl
  exact (departures_reported (exec_lastSweep insider) hApp rfl hReports hReaped).1 "alice" hLists
    hOnly

theorem outsider_reports_nothing : exec (step "node-b") (fun _ : Unit => outsider) lastSweep =
      some (fun _ => swept outsider) ∧
    outsider.presenceCache.Lists "app" "presence-room" "node-b" "alice" ∧
    Always (step "node-b") (OnlyHeldBy "node-b" "app" "presence-room" "alice")
      (fun _ : Unit => outsider) lastSweep ∧ Reaped "node-b" (fun _ : Unit => swept outsider) ∧
    outsider.webhooksSince (swept outsider) = [] := by
  refine ⟨exec_lastSweep outsider, lists_of_announced (by decide) (by decide), ?_, ?_, by decide⟩
  · exact always_lastSweep (onlyHeldBy_of_keys (by decide) (by decide))
      (onlyHeldBy_of_keys (by decide) (by decide))
  · exact reaped_of_isEmpty (by decide) (by decide)

/-! ## Followers report nothing -/

theorem isFleetLeader_iff {d : EventDispatcher} {now : Instant} :
    d.isFleetLeader now = true ↔ ∀ p at_, d.peersSeen.lookup p = some at_ →
      durationSince now at_ ≤ snapshotTtl → d.nodeId < p := by
  simp only [EventDispatcher.isFleetLeader, List.all_eq_true, Bool.or_eq_true, decide_eq_true_eq]
  constructor
  · intro h p at_ hSeen hFresh
    rcases h ⟨p, at_⟩ (mem_entries_iff.mpr hSeen) with hOld | hLower
    · exact absurd hOld (Nat.not_lt.mpr hFresh)
    · exact hLower
  · intro h e he
    by_cases hFresh : durationSince now e.2 ≤ snapshotTtl
    · exact .inr (h e.1 e.2 (mem_entries_iff.mp he) hFresh)
    · exact .inl (Nat.not_le.mp hFresh)

theorem passEvents_of_follower {node : Node} {now : Instant}
    (h : node.dispatcher.isFleetLeader now = false) : node.passEvents now = [] := by
  rw [passEvents, append_eq_nil_iff, flatMap_eq_nil_iff, flatMap_eq_nil_iff]
  constructor
  · intro m _
    rw [memberEvents]
    split <;> simp [h]
  · intro x _
    rw [countEvents]
    split <;> simp [h]

/-- Of nodes that have lately heard of each other, and of nobody else, the one with the lowest
id leads, and the sweeps of the others report nothing. -/
theorem followers_report_nothing {ι : Type} [Finite ι] [Nonempty ι] (σ : ι → Node)
    (nows : ι → Instant) (hDistinct : Injective fun i => (σ i).dispatcher.nodeId)
    (hHeard : ∀ i p, (∃ at_, (σ i).dispatcher.peersSeen.lookup p = some at_ ∧
      durationSince (nows i) at_ ≤ snapshotTtl) ↔ ∃ j ≠ i, (σ j).dispatcher.nodeId = p) :
    ∃ r, (σ r).dispatcher.isFleetLeader (nows r) = true ∧ ∀ j ≠ r,
      (σ r).dispatcher.nodeId < (σ j).dispatcher.nodeId ∧
      ((σ j).presenceCacheGc (nows j)).webhooks = (σ j).webhooks := by
  obtain ⟨r, hLowest⟩ := Finite.exists_min fun i => (σ i).dispatcher.nodeId
  have hLower {j : ι} (hj : j ≠ r) : (σ r).dispatcher.nodeId < (σ j).dispatcher.nodeId :=
    lt_of_le_of_ne (hLowest j) fun hEq => hj (hDistinct hEq).symm
  refine ⟨r, isFleetLeader_iff.mpr ?_, fun j hj => ⟨hLower hj, ?_⟩⟩
  · intro p at_ hSeen hFresh
    obtain ⟨j, hj, rfl⟩ := (hHeard r p).mp ⟨at_, hSeen, hFresh⟩
    exact hLower hj
  · have hFollows : (σ j).dispatcher.isFleetLeader (nows j) = false := by
      rw [Bool.eq_false_iff]
      intro hLeads
      obtain ⟨at_, hSeen, hFresh⟩ := (hHeard j _).mpr ⟨r, hj.symm, rfl⟩
      exact lt_asymm (isFleetLeader_iff.mp hLeads _ at_ hSeen hFresh) (hLower hj)
    rw [presenceCacheGc_eq, passEvents_of_follower hFollows]
    exact append_nil _

/-- Both nodes still list a user of `node-b` when they last hear of each other. -/
def pairNode (second : Bool) : Node :=
  let node := (Node.new (cond second "n2" "n1") true exampleTable).handleIncoming 0 lastRoster
  let node := node.handleSubscribe (Duration.fromSecs 1) exampleApp "1.1" "presence-room"
    (some ⟨"bob", none⟩)
  node.handleIncoming (Duration.fromSecs 16)
    (EventDispatcher.envelope exampleApp 1 (.UserOffline (cond second "n1" "n2") "carol"))

theorem pair_follower_reports_nothing :
    (pairNode false).webhooksSince (swept (pairNode false)) =
      [("app", .MemberRemoved "presence-room" "alice")] ∧
    ∃ r, (pairNode r).dispatcher.isFleetLeader (Duration.fromSecs 16) = true ∧ ∀ j ≠ r,
      (pairNode r).dispatcher.nodeId < (pairNode j).dispatcher.nodeId ∧
      (swept (pairNode j)).webhooks = (pairNode j).webhooks := by
  refine ⟨by decide, followers_report_nothing pairNode (fun _ => Duration.fromSecs 16) (by decide)
    fun i p => ?_⟩
  have hSeen : (pairNode i).dispatcher.peersSeen.lookup p =
      if p = cond i "n1" "n2" then some (Duration.fromSecs 16)
      else if p = "node-b" then some 0 else none := by
    cases i <;> exact (lookup_insert_if ..).trans (if_congr .rfl rfl (lookup_insert_if ..))
  have hId (j : Bool) : (pairNode j).dispatcher.nodeId = cond j "n2" "n1" := by
    cases j <;> rfl
  have hOther : (∃ j ≠ i, (pairNode j).dispatcher.nodeId = p) ↔ p = cond i "n1" "n2" := by
    cases i <;> simp [hId, eq_comm]
  rw [hSeen, hOther]
  split
  · rename_i hp
    simp [hp, durationSince]
  · rename_i hp
    split <;> simp [hp, durationSince, snapshotTtl, Duration.fromSecs]

end Zatat.Crash
