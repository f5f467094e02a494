import Zatat.Lib.Echo
import Zatat.Scaling.FanOut

/-! # The fleet's copies of a cached event

Nodes publish to one cache channel. A publication is stored by its own node at once,
then queued; the queues are drained onto the bus, which hands everything to every node
in one order. Publications of one node run beside each other, so they need not be
queued in the order in which they were stored.
-/

namespace Zatat.CacheAgreement

open Function Transition ChannelKind EventDispatcher.PeerKnowledge List Node

/-- A publication that its own node has stored and not queued yet. -/
structure Publication where
  event : String
  data : String
  except : Option String
deriving DecidableEq

structure State (ι : Type) where
  nodes : ι → Node
  publishing : ι → List Publication
  /-- How much of each node's queue is on the bus. -/
  shipped : ι → Nat
  bus : List (ι × ScalingEnvelope)
  /-- How much of the bus each node has handled. -/
  handled : ι → Nat

inductive Label (ι : Type) where
  | store (i : ι) (moment : Moment) (event data : String) (except : Option String)
  | enqueue (i : ι) (k : Nat)
  | ship (i : ι)
  | deliver (i : ι) (now : Instant)

def start {ι : Type} (nodes : ι → Node) : State ι :=
  ⟨nodes, fun _ => [], fun i => (nodes i).dispatcher.published.length, [], fun _ => 0⟩

variable {ι : Type} [DecidableEq ι]

def step (prims : Primitives) (app : Application) (c : String) (σ : State ι) :
    Label ι → Option (State ι)
  | .store i moment event data except =>
    match maybeEncrypt prims moment.nonce app (ChannelKind.fromName c) c data with
    | .error _ => some σ
    | .ok sealedData => some { σ with
        nodes := update σ.nodes i ((σ.nodes i).broadcastLocallyWithApp moment.now app c
          event sealedData except)
        publishing := update σ.publishing i
          (σ.publishing i ++ [⟨event, sealedData, except⟩]) }
  | .enqueue i k =>
    (σ.publishing i)[k]?.map fun p => { σ with
      nodes := update σ.nodes i ((σ.nodes i).publishMessage app c p.event p.data p.except)
      publishing := update σ.publishing i ((σ.publishing i).eraseIdx k) }
  | .ship i =>
    (σ.nodes i).dispatcher.published[σ.shipped i]?.map fun env => { σ with
      shipped := update σ.shipped i (σ.shipped i + 1)
      bus := σ.bus ++ [(i, env)] }
  | .deliver i now =>
    σ.bus[σ.handled i]?.map fun e => { σ with
      nodes := update σ.nodes i ((σ.nodes i).handleIncoming now e.2)
      handled := update σ.handled i (σ.handled i + 1) }

structure AtRest (σ : State ι) : Prop where
  published : ∀ i, σ.publishing i = []
  shipped : ∀ i, σ.shipped i = (σ.nodes i).dispatcher.published.length
  handled : ∀ i, σ.handled i = σ.bus.length

def Returned (σ : State ι) (i : ι) : Prop :=
  σ.publishing i = [] ∧ σ.shipped i = (σ.nodes i).dispatcher.published.length ∧
    ∀ e ∈ σ.bus.drop (σ.handled i), e.1 ≠ i

/-- A node queues its publications in the order in which it stored them, and takes a
peer's only when all of its own have come back. -/
def InOrder (σ : State ι) : Label ι → Prop
  | .enqueue _ k => k = 0
  | .deliver i _ =>
    match σ.bus[σ.handled i]? with
    | some e => e.1 = i ∨ Returned σ i
    | none => True
  | _ => True

instance decidableReturned (σ : State ι) (i : ι) : Decidable (Returned σ i) :=
  inferInstanceAs (Decidable (_ ∧ _ ∧ _))

instance decidableInOrder (σ : State ι) : (label : Label ι) → Decidable (InOrder σ label)
  | .store _ _ _ _ _ => .isTrue trivial
  | .enqueue _ k => inferInstanceAs (Decidable (k = 0))
  | .ship _ => .isTrue trivial
  | .deliver i _ =>
    match h : σ.bus[σ.handled i]? with
    | some e => decidable_of_iff (e.1 = i ∨ Returned σ i) (by rw [InOrder, h])
    | none => .isTrue (by rw [InOrder, h]; trivial)

theorem store_enqueue {prims : Primitives} {app : Application} {c : String} {σ : State ι} {i : ι}
    (hScaling : (σ.nodes i).dispatcher.scalingEnabled = true) {moment : Moment} {data : String}
    {sealedData : String} (event : String) (except : Option String)
    (hSealed : maybeEncrypt prims moment.nonce app (fromName c) c data =
      .ok sealedData) : ∃ σ', exec (step prims app c) σ [.store i moment event data except,
        .enqueue i (σ.publishing i).length] = some σ' ∧ σ'.nodes = update σ.nodes i
        ((σ.nodes i).dispatchMessage prims moment app c event data except).2 ∧
      σ'.publishing = σ.publishing := by
  have hNext : (σ.publishing i ++ [⟨event, sealedData, except⟩])[(σ.publishing i).length]? =
      some ⟨event, sealedData, except⟩ := List.getElem?_concat_length ..
  refine ⟨{ σ with
    nodes := update σ.nodes i ((σ.nodes i).dispatchMessage prims moment app c event data
      except).2 }, ?_, rfl, rfl⟩
  rw [exec, step, hSealed]
  dsimp only [Option.bind]
  rw [exec, step]
  simp only [update_self, update_idem]
  rw [hNext, eraseIdx_append_of_length_le (Nat.le_refl _), Nat.sub_self,
    eraseIdx_cons_zero, append_nil, update_eq_self,
    FanOut.dispatchMessage_of_sealed hScaling event except hSealed]
  rfl

/-! ## What a node stores -/

theorem storedPayload_broadcastLocallyWithApp {node : Node} (hKinds : node.KindsByName)
    {c : String} (hCache : (fromName c).isCache = true) (now : Instant)
    (app : Application) (event data : String) (except : Option String) :
    (node.broadcastLocallyWithApp now app c event data except).storedPayload app.id c =
      some ⟨event, data, c⟩ := by
  have hOrdinary : ¬ startsWith c "#server-to-user-" = true := by
    intro hUser
    rw [fromName_user hUser] at hCache
    cases hCache
  have hKind : ((node.apps app.id).entryOrNew app c).kind = fromName c := by
    rcases (node.apps app.id).label_entryOrNew app c with hNew | ⟨ch, hFind, hSame⟩
    · exact congrArg Prod.snd hNew
    · exact (congrArg Prod.snd hSame).trans (hKinds _ _ _ hFind)
  rw [broadcastLocallyWithApp, if_neg hOrdinary, AppChannels.getOrCreateCacheChannel, if_pos hCache]
  dsimp only
  rw [storedPayload, setServer]
  dsimp only
  rw [apps_setApp, if_pos rfl, AppChannels.storedPayload,
    AppChannels.findChannel_setChannel, if_pos rfl, Channel.setCachedPayload, hKind, if_pos hCache]
  rfl

def stored (env : ScalingEnvelope) : Option EventPayload :=
  match env.payload with
  | .Message _ channel event data _ => some ⟨event, data, channel⟩
  | _ => none

def IsMessage (app : Application) (c origin : String) (env : ScalingEnvelope) : Prop :=
  ∃ seq event data except,
    env = EventDispatcher.envelope app seq (.Message origin c event data except)

section

variable {app : Application} {c : String} {node : Node}

theorem handleIncoming_own (hTable : node.config app.id = some app) {env : ScalingEnvelope}
    (hEnv : IsMessage app c node.dispatcher.nodeId env) (now : Instant) :
    node.handleIncoming now env = node := by
  obtain ⟨seq, event, data, except, rfl⟩ := hEnv
  have hSeen : node.seePeer now (.Message node.dispatcher.nodeId c event data except) = node :=
    if_pos rfl
  rw [handleIncoming_envelope hTable, hSeen]
  exact handlePayload_of_own _ _ _ rfl rfl

theorem handleIncoming_peer (hTable : node.config app.id = some app) {origin : String}
    {env : ScalingEnvelope} (hEnv : IsMessage app c origin env)
    (hOrigin : origin ≠ node.dispatcher.nodeId) (now : Instant) :
    ∃ event data except, stored env = some ⟨event, data, c⟩ ∧ node.handleIncoming now env =
      (node.seePeer now env.payload).broadcastLocallyWithApp now app c event data except := by
  obtain ⟨seq, event, data, except, rfl⟩ := hEnv
  have hSeen : origin ≠ (node.seePeer now
      (.Message origin c event data except)).dispatcher.nodeId := by
    rw [(node.seePeer_same ..).2.2.2.1]
    exact hOrigin
  refine ⟨event, data, except, rfl, ?_⟩
  rw [handleIncoming_envelope hTable]
  exact handlePayload_of_peer _ _ _ rfl hSeen

end

/-! ## The invariant of one node -/

def waiting (c : String) (node : Node) (publishing : List Publication) (shipped : Nat) :
    List (Option EventPayload) :=
  (node.dispatcher.published.drop shipped).map stored ++
    publishing.map fun p => some ⟨p.event, p.data, c⟩

def entry (e : ι × ScalingEnvelope) : ι × Option EventPayload := (e.1, stored e.2)

structure Site (app : Application) (c : String) (initial : Option EventPayload)
    (bus : List (ι × ScalingEnvelope)) (i : ι) (node : Node) (publishing : List Publication)
    (shipped handled : Nat) : Prop where
  queued : ∀ env ∈ node.dispatcher.published.drop shipped,
    IsMessage app c node.dispatcher.nodeId env
  shipped_le : shipped ≤ node.dispatcher.published.length
  follows : Echo.Follows initial i (bus.map entry) handled (waiting c node publishing shipped)
    (node.storedPayload app.id c)

section

variable {app : Application} {c : String} {initial : Option EventPayload}
variable {bus : List (ι × ScalingEnvelope)} {i j : ι} {node : Node}
variable {publishing : List Publication} {shipped handled : Nat} {env : ScalingEnvelope}

theorem Site.store (h : Site app c initial bus i node publishing shipped handled)
    (hKinds : node.KindsByName) (hCache : (fromName c).isCache = true)
    (now : Instant) (p : Publication) :
    Site app c initial bus i (node.broadcastLocallyWithApp now app c p.event p.data p.except)
      (publishing ++ [p]) shipped handled := by
  obtain ⟨hDispatcher, -⟩ := node.broadcastLocallyWithApp_same now app c p.event p.data p.except
  refine ⟨?_, ?_, ?_⟩
  · rw [hDispatcher]
    exact h.queued
  · rw [hDispatcher]
    exact h.shipped_le
  · rw [storedPayload_broadcastLocallyWithApp hKinds hCache, waiting, hDispatcher,
      map_append, ← append_assoc]
    exact h.follows.write _

theorem Site.enqueue {p : Publication}
    (h : Site app c initial bus i node (p :: publishing) shipped handled)
    (hScaling : node.dispatcher.scalingEnabled = true) :
    Site app c initial bus i (node.publishMessage app c p.event p.data p.except) publishing
      shipped handled := by
  obtain ⟨seq, hPublished⟩ := node.dispatcher.published_spawnPublish hScaling app 0
    (.Message node.dispatcher.nodeId c p.event p.data p.except)
  have hNodeId : (node.publishMessage app c p.event p.data p.except).dispatcher.nodeId =
      node.dispatcher.nodeId :=
    congrArg nodeId (EventDispatcher.known_spawnPublish ..)
  have hDrop : (node.publishMessage app c p.event p.data p.except).dispatcher.published.drop
      shipped = node.dispatcher.published.drop shipped ++ [EventDispatcher.envelope app seq
        (.Message node.dispatcher.nodeId c p.event p.data p.except)] := by
    rw [publishMessage]
    dsimp only
    rw [hPublished, drop_append_of_le_length h.shipped_le]
  refine ⟨?_, ?_, ?_⟩
  · intro env hEnv
    rw [hDrop, mem_append, mem_singleton] at hEnv
    rw [hNodeId]
    rcases hEnv with hOld | rfl
    · exact h.queued env hOld
    · exact ⟨seq, p.event, p.data, p.except, rfl⟩
  · rw [publishMessage]
    dsimp only
    rw [hPublished, length_append]
    exact Nat.le_add_right_of_le h.shipped_le
  · have hFollows := h.follows
    rw [waiting, map_cons] at hFollows
    rw [waiting, hDrop, map_append, append_assoc]
    exact hFollows

variable (h : Site app c initial bus i node publishing shipped handled)

include h

theorem Site.ship (hNext : node.dispatcher.published[shipped]? = some env) :
    Site app c initial (bus ++ [(i, env)]) i node publishing (shipped + 1) handled := by
  have hDrop := Echo.drop_of_next hNext
  refine ⟨?_, Echo.lt_length_of_next hNext, ?_⟩
  · intro env' hEnv'
    exact h.queued env' (by rw [hDrop]; exact mem_cons_of_mem _ hEnv')
  · have hFollows := h.follows
    rw [waiting, hDrop, map_cons, cons_append] at hFollows
    rw [map_append]
    exact hFollows.ship_own

theorem Site.shipOther (hj : j ≠ i) (env : ScalingEnvelope) :
    Site app c initial (bus ++ [(j, env)]) i node publishing shipped handled := by
  refine ⟨h.queued, h.shipped_le, ?_⟩
  rw [map_append]
  exact h.follows.ship_other hj _

theorem Site.deliverOwn (hTable : node.config app.id = some app)
    (hEnv : IsMessage app c node.dispatcher.nodeId env) (hNext : bus[handled]? = some (i, env))
    (now : Instant) :
    Site app c initial bus i (node.handleIncoming now env) publishing shipped (handled + 1) := by
  have hEntry : (bus.map entry)[handled]? = some (i, stored env) := by
    rw [List.getElem?_map, hNext]
    rfl
  rw [handleIncoming_own hTable hEnv]
  exact ⟨h.queued, h.shipped_le, h.follows.echo hEntry⟩

theorem Site.deliverPeer (hTable : node.config app.id = some app) (hKinds : node.KindsByName)
    (hCache : (fromName c).isCache = true) {origin : String}
    (hEnv : IsMessage app c origin env) (hOrigin : origin ≠ node.dispatcher.nodeId)
    (hNext : bus[handled]? = some (j, env)) (hj : j ≠ i) (now : Instant)
    (hReturned : publishing = [] ∧ shipped = node.dispatcher.published.length ∧
      ∀ e ∈ bus.drop handled, e.1 ≠ i) :
    Site app c initial bus i (node.handleIncoming now env) publishing shipped (handled + 1) := by
  obtain ⟨rfl, rfl, hBus⟩ := hReturned
  obtain ⟨event, data, except, hStored, hHandled⟩ := handleIncoming_peer hTable hEnv hOrigin now
  obtain ⟨-, -, -, hNodeId, -, hPublished⟩ := node.seePeer_same now env.payload
  obtain ⟨hDispatcher, -⟩ := (node.seePeer now env.payload).broadcastLocallyWithApp_same now app c
    event data except
  have hSeenKinds : (node.seePeer now env.payload).KindsByName :=
    (node.within_seePeer (f := .unbound) now env.payload).kindsByName hKinds
  have hEntry : (bus.map entry)[handled]? = some (j, stored env) := by
    rw [List.getElem?_map, hNext]
    rfl
  have hPending : Echo.pending i (bus.map entry) handled
      (waiting c node [] node.dispatcher.published.length) = [] := by
    have hOwn : ((bus.map entry).drop handled).filter (fun e => e.1 = i) = [] := by
      rw [filter_eq_nil_iff, ← map_drop]
      intro e he
      obtain ⟨e', he', rfl⟩ := mem_map.mp he
      exact fun hEq => hBus e' he' (of_decide_eq_true hEq)
    rw [Echo.pending, hOwn, waiting, drop_length]
    rfl
  have hWaiting : waiting c (node.handleIncoming now env) []
      node.dispatcher.published.length = waiting c node [] node.dispatcher.published.length := by
    rw [waiting, hHandled, hDispatcher, hPublished, waiting]
  refine ⟨?_, ?_, ?_⟩
  · rw [hHandled, hDispatcher, hPublished, hNodeId]
    exact h.queued
  · rw [hHandled, hDispatcher, hPublished]
  · rw [hWaiting, hHandled, storedPayload_broadcastLocallyWithApp hSeenKinds hCache, ← hStored]
    exact .receive hEntry hj hPending

end

/-! ## The invariant of the fleet -/

open FanOut

theorem remains_broadcastLocallyWithApp (node : Node) (now : Instant) (app : Application)
    (c event data : String) (except : Option String) :
    Remains node (node.broadcastLocallyWithApp now app c event data except) := by
  obtain ⟨hDispatcher, -⟩ := node.broadcastLocallyWithApp_same now app c event data except
  exact ⟨node.within_broadcastLocallyWithApp now app except (fun _ => trivial) trivial,
    by rw [hDispatcher], by rw [hDispatcher]⟩

theorem remains_publishMessage (node : Node) (app : Application) (c event data : String)
    (except : Option String) : Remains node (node.publishMessage app c event data except) := by
  have hKnown := node.dispatcher.known_spawnPublish (EventDispatcher.envelope app 0
    (.Message node.dispatcher.nodeId c event data except))
  exact ⟨.of_apps rfl (Server.emits_spawnPublish _ rfl app 0 trivial), congrArg nodeId hKnown,
    congrArg scalingEnabled hKnown⟩

theorem remains_handleIncoming {app : Application} {c origin : String} {node : Node}
    (hTable : node.config app.id = some app) {env : ScalingEnvelope}
    (hEnv : IsMessage app c origin env) (now : Instant) :
    Remains node (node.handleIncoming now env) := by
  by_cases hOrigin : origin = node.dispatcher.nodeId
  · rw [hOrigin] at hEnv
    rw [handleIncoming_own hTable hEnv]
    exact ⟨.refl node, rfl, rfl⟩
  · obtain ⟨event, data, except, -, hHandled⟩ := handleIncoming_peer hTable hEnv hOrigin now
    obtain ⟨-, -, -, hNodeId, hScaling, -⟩ := node.seePeer_same now env.payload
    have hRest := remains_broadcastLocallyWithApp (node.seePeer now env.payload) now app c event
      data except
    rw [hHandled]
    exact ⟨(node.within_seePeer now env.payload).trans hRest.within, hRest.nodeId.trans hNodeId,
      hRest.scaling.trans hScaling⟩

structure Inv (app : Application) (c : String) (initial : Option EventPayload) (σ : State ι) :
    Prop where
  fleet : Fleet σ.nodes app
  onBus : ∀ e ∈ σ.bus, IsMessage app c (σ.nodes e.1).dispatcher.nodeId e.2
  site : ∀ i, Site app c initial σ.bus i (σ.nodes i) (σ.publishing i) (σ.shipped i) (σ.handled i)

section

variable {prims : Primitives} {app : Application} {c : String} {initial : Option EventPayload}

theorem inv_start {nodes : ι → Node} (hFleet : Fleet nodes app)
    (hInitial : ∀ i, (nodes i).storedPayload app.id c = initial) :
    Inv app c initial (start nodes) := by
  refine ⟨hFleet, fun e he => absurd he not_mem_nil, fun i => ⟨?_, Nat.le_refl _, ?_⟩⟩
  · intro env hEnv
    rw [start, drop_length] at hEnv
    exact absurd hEnv not_mem_nil
  · rw [start, waiting, drop_length]
    dsimp only
    rw [hInitial i]
    exact Echo.follows_init initial i

theorem Inv.update {σ : State ι} (h : Inv app c initial σ) {i : ι} {after : Node}
    (hRemains : Remains (σ.nodes i) after) {publishing : List Publication} {handled : Nat}
    (hSite : Site app c initial σ.bus i after publishing (σ.shipped i) handled) :
    Inv app c initial { σ with
      nodes := update σ.nodes i after
      publishing := update σ.publishing i publishing
      handled := update σ.handled i handled } := by
  refine ⟨h.fleet.update hRemains, fun e he => ?_, fun j => ?_⟩
  · dsimp only
    rw [nodeId_update hRemains]
    exact h.onBus e he
  · dsimp only
    by_cases hj : j = i
    · subst hj
      rw [update_self, update_self, update_self]
      exact hSite
    · rw [update_of_ne hj, update_of_ne hj, update_of_ne hj]
      exact h.site j

theorem inv_step (hCache : (fromName c).isCache = true) {σ σ' : State ι}
    {label : Label ι} (h : Inv app c initial σ) (hOrder : InOrder σ label)
    (hStep : step prims app c σ label = some σ') : Inv app c initial σ' := by
  cases label with
  | store i moment event data except =>
    rw [step] at hStep
    split at hStep
    · cases hStep
      exact h
    · rename_i sealedData _
      cases hStep
      have hSite := (h.site i).store (h.fleet.sound i).kinds hCache moment.now
        ⟨event, sealedData, except⟩
      have hInv := h.update (remains_broadcastLocallyWithApp ..) hSite
      rw [update_eq_self] at hInv
      exact hInv
  | enqueue i k =>
    obtain ⟨p, hNext, rfl⟩ := Option.map_eq_some_iff.mp hStep
    have hk : k = 0 := hOrder
    subst hk
    have hSite := h.site i
    cases hPublishing : σ.publishing i with
    | nil =>
      rw [hPublishing] at hNext
      cases hNext
    | cons head rest =>
      rw [hPublishing] at hNext hSite
      cases hNext
      have hInv := h.update (remains_publishMessage ..) (hSite.enqueue (h.fleet.scaling i))
      rw [update_eq_self] at hInv
      exact hInv
  | ship i =>
    obtain ⟨env, hNext, rfl⟩ := Option.map_eq_some_iff.mp hStep
    have hEnv : IsMessage app c (σ.nodes i).dispatcher.nodeId env :=
      (h.site i).queued env (by rw [Echo.drop_of_next hNext]; exact mem_cons_self)
    refine ⟨h.fleet, fun e he => ?_, fun j => ?_⟩
    · rcases mem_append.mp he with he | he
      · exact h.onBus e he
      · rw [mem_singleton.mp he]
        exact hEnv
    · dsimp only
      by_cases hj : j = i
      · subst hj
        rw [update_self]
        exact (h.site j).ship hNext
      · rw [update_of_ne hj]
        exact (h.site j).shipOther (Ne.symm hj) env
  | deliver i now =>
    obtain ⟨e, hNext, rfl⟩ := Option.map_eq_some_iff.mp hStep
    obtain ⟨origin, env⟩ := e
    have hTable := h.fleet.table i
    have hEnv : IsMessage app c (σ.nodes origin).dispatcher.nodeId env :=
      h.onBus (origin, env) (mem_of_getElem? hNext)
    have hSite : Site app c initial σ.bus i ((σ.nodes i).handleIncoming now env)
        (σ.publishing i) (σ.shipped i) (σ.handled i + 1) := by
      by_cases hOwn : origin = i
      · subst hOwn
        exact (h.site origin).deliverOwn hTable hEnv hNext now
      · rw [InOrder, hNext] at hOrder
        exact (h.site i).deliverPeer hTable (h.fleet.sound i).kinds hCache hEnv
          (fun hEq => hOwn (h.fleet.distinct _ _ hEq)) hNext hOwn now (hOrder.resolve_left hOwn)
    have hInv := h.update (remains_handleIncoming hTable hEnv now) hSite
    rw [update_eq_self] at hInv
    exact hInv

/-- In a run in which nodes queue and take publications in order, whenever everything has
been delivered all nodes store the same event. -/
theorem caches_agree_of_inOrder (prims : Primitives) (app : Application) {c : String}
    (hCache : (ChannelKind.fromName c).isCache = true) {nodes : ι → Node}
    (hFleet : Fleet nodes app) {initial : Option EventPayload}
    (hInitial : ∀ i, (nodes i).storedPayload app.id c = initial) (run : List (Label ι))
    (hRun : EachStep (step prims app c) InOrder (start nodes) run) :
    Always (step prims app c) (fun σ => AtRest σ →
      ∀ i j, (σ.nodes i).storedPayload app.id c = (σ.nodes j).storedPayload app.id c)
      (start nodes) run := by
  have hAlways := always_of_step (fun _ _ _ h hOrder hStep => inv_step hCache h hOrder hStep)
    (inv_start hFleet hInitial) hRun
  refine hAlways.mono fun σ hInv hRest i j => ?_
  have hLast (i : ι) : (σ.nodes i).storedPayload app.id c =
      ((σ.bus.map entry).map Prod.snd).getLastD initial := by
    have hFollows := (hInv.site i).follows
    have hHandled : σ.handled i = (σ.bus.map entry).length := by
      rw [List.length_map]
      exact hRest.handled i
    have hWaiting : waiting c (σ.nodes i) (σ.publishing i) (σ.shipped i) = [] := by
      rw [waiting, hRest.published, hRest.shipped, List.drop_length]
      rfl
    rw [hHandled, hWaiting] at hFollows
    exact hFollows.settled
  rw [hLast i, hLast j]

end

/-! ## Two nodes -/

def freshNodes (second : Bool) : Node := (exampleStart second).node

theorem freshNodes_fleet : Fleet freshNodes exampleApp where
  table _ := rfl
  distinct := by decide
  scaling := by decide
  sound _ := sound_of_indexed (Serving.indexed_new ..) (by rintro _ _ _ ⟨⟩)

def publishAt (i : Bool) (data : String) : List (Label Bool) :=
  [.store i ⟨0, 0⟩ "news" data none, .enqueue i 0]

instance (σ : State Bool) : Decidable (AtRest σ) :=
  decidable_of_iff ((∀ i, σ.publishing i = []) ∧
      (∀ i, σ.shipped i = (σ.nodes i).dispatcher.published.length) ∧
      ∀ i, σ.handled i = σ.bus.length)
    ⟨fun ⟨hPublished, hShipped, hHandled⟩ => ⟨hPublished, hShipped, hHandled⟩,
      fun h => ⟨h.published, h.shipped, h.handled⟩⟩

theorem ends_at_rest (run : List (Label Bool)) (first second : EventPayload)
    (h : (exec (step examplePrims exampleApp "cache-room") (start freshNodes) run).map
      (fun σ => (decide (AtRest σ), (σ.nodes false).storedPayload "app" "cache-room",
        (σ.nodes true).storedPayload "app" "cache-room")) = some (true, some first, some second)) :
    ∃ σ, exec (step examplePrims exampleApp "cache-room") (start freshNodes) run = some σ ∧
      AtRest σ ∧ (σ.nodes false).storedPayload "app" "cache-room" = some first ∧
      (σ.nodes true).storedPayload "app" "cache-room" = some second := by
  obtain ⟨σ, hRun, hFacts⟩ := Option.map_eq_some_iff.mp h
  simp only [Prod.mk.injEq, decide_eq_true_eq] at hFacts
  exact ⟨σ, hRun, hFacts⟩

def crossingRun : List (Label Bool) :=
  publishAt false "a" ++ publishAt true "b" ++ [.ship false, .ship true] ++
    [.deliver false 0, .deliver false 0, .deliver true 0, .deliver true 0]

theorem crossingRun_disagrees : ∃ σ,
    exec (step examplePrims exampleApp "cache-room") (start freshNodes) crossingRun = some σ ∧
    AtRest σ ∧ (σ.nodes false).storedPayload "app" "cache-room" = some ⟨"news", "b", "cache-room"⟩ ∧
    (σ.nodes true).storedPayload "app" "cache-room" = some ⟨"news", "a", "cache-room"⟩ :=
  ends_at_rest crossingRun _ _ (by decide +kernel)

def turnsRun : List (Label Bool) :=
  publishAt false "a" ++ [.ship false, .deliver false 0, .deliver true 0] ++
    publishAt true "b" ++ [.ship true, .deliver true 0, .deliver false 0]

theorem turnsRun_agrees : ∃ σ,
    exec (step examplePrims exampleApp "cache-room") (start freshNodes) turnsRun = some σ ∧
    AtRest σ ∧ (σ.nodes false).storedPayload "app" "cache-room" = some ⟨"news", "b", "cache-room"⟩ ∧
    ∀ i j, (σ.nodes i).storedPayload "app" "cache-room" =
      (σ.nodes j).storedPayload "app" "cache-room" := by
  obtain ⟨σ, hRun, hRest, hStored, -⟩ := ends_at_rest turnsRun
    ⟨"news", "b", "cache-room"⟩ ⟨"news", "b", "cache-room"⟩ (by decide +kernel)
  have hAlways := caches_agree_of_inOrder examplePrims exampleApp (c := "cache-room") (by decide)
    freshNodes_fleet (fun _ => rfl) turnsRun (by decide +kernel)
  exact ⟨σ, hRun, hRest, hStored, hAlways.of_exec hRun hRest⟩

end Zatat.CacheAgreement
