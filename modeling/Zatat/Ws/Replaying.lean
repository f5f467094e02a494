import Zatat.Ws.CachedEvents

/-! # What changes the event a channel replays

A new subscriber of a cache channel is replayed the stored event while it is live. Only a
publication to the channel, here or on a peer, changes that event: no join or leave, no
other message, no periodic task and no other request does.
-/

namespace Zatat

namespace Serving

open Transition Node Option AppChannels

def Action.PublishesTo (a c : String) : Action → Prop
  | .request appId (.publishEvent _ _ payload) => appId = a ∧ c ∈ Http.eventChannels payload
  | .request appId (.publishBatchEvents _ _ batch) =>
    appId = a ∧ ∃ ev ∈ batch, c ∈ Http.eventChannels ev
  | .incoming _ env =>
    env.app.id = a ∧ ∃ origin event data except, env.payload = .Message origin c event data except
  | _ => False

/-- The moment the action reads from the clock; the others read none that matters here. -/
def Action.time : Action → Instant
  | .frame now _ _ => now
  | .disconnect now _ => now
  | .incoming now _ => now
  | .collect now => now
  | _ => 0

/-- What `subscribe_with` hands a new subscriber for the replay. -/
def replayed (node : Node) (t : Instant) (app : Application) (c socketId : String)
    (presence : Option PresenceMember) : Option EventPayload :=
  ((node.apps app.id).subscribeWith t app c socketId presence fun _ => true).1.bind
    fun joined => joined.2.1.cachedPayload

theorem replayed_eq_eventAt (node : Node) (t : Instant) (app : Application) (c socketId : String)
    (presence : Option PresenceMember) :
    replayed node t app c socketId presence = (node.apps app.id).eventAt t c := by
  have hEvent := (Channel.cachedPayloadAt_subscribe ((node.apps app.id).entryOrNew app c) socketId
    presence t).trans ((node.apps app.id).eventAt_entryOrNew app c t)
  rw [replayed, subscribeWith, if_pos rfl, bind_some]
  dsimp only
  rw [← hEvent]
  split
  · rfl
  · rename_i hPlain
    rw [Channel.cachedPayloadAt, if_neg hPlain]

section

variable {prims : Primitives} {σ σ' : ServerState} {a c : String}

theorem keepsEvent_respond (node : Node) {app : Application} {request : Request}
    (hOther : ¬ Action.PublishesTo a c (.request app.id request)) (now : Instant) :
    KeepsEvent now a c node (respond prims node app request) := by
  cases request with
  | publishEvent moments at_ payload =>
    exact Http.publishEvent_keeps .refl
      (keepsEvent_dispatchChannels prims node moments _ _ _ 0 hOther)
  | publishBatchEvents moments at_ batch =>
    refine Http.publishBatchEvents_keeps .refl .trans (fun node k ev hMem => ?_) node
    exact keepsEvent_dispatchChannels prims node moments _ _ _ k
      fun h => hOther ⟨h.1, ev, hMem, h.2⟩
  | userEvents userId payload =>
    rw [respond, Http.userEvents]
    split
    · exact .refl node
    · split
      · exact .refl node
      · dsimp only
        rw [dispatchUserEvent]
        split <;> exact .of_apps rfl
  | terminateUser userId =>
    rw [respond, Http.terminateUser, publishTerminateUser]
    split <;> exact .of_apps rfl
  | askFleet requestId query =>
    rw [respond, askFleet]
    split <;> exact .of_apps rfl
  | closeRequest requestId => exact .of_apps rfl

theorem keepsEvent_incoming (hRecorded : Recorded σ) (now : Instant) {env : ScalingEnvelope}
    (hOther : ¬ Action.PublishesTo a c (.incoming now env)) :
    KeepsEvent now a c σ.node (σ.node.handleIncoming now env) := by
  obtain ⟨hApps, -, hConfig, -⟩ := σ.node.seePeer_same now env.payload
  rw [handleIncoming]
  split
  · exact .refl _
  · dsimp only
    split
    · exact .of_apps hApps
    · rename_i app hApp
      rw [hConfig] at hApp
      refine KeepsEvent.trans (.of_apps hApps) (keepsEvent_handlePayload _ now app env.seq ?_)
      intro origin event data except hPayload ha
      rw [hRecorded.table _ app hApp] at ha
      exact hOther ⟨ha, origin, event, data, except, hPayload⟩

theorem keepsEvent_step (hRecorded : Recorded σ) {action : Action}
    (hOther : ¬ action.PublishesTo a c) (hStep : step prims σ action = some σ') :
    KeepsEvent action.time a c σ.node σ'.node := by
  cases action with
  | connect appId socketId =>
    rw [step] at hStep
    split at hStep
    · cases hStep
    · obtain ⟨app, -, rfl⟩ := map_eq_some_iff.mp hStep
      have hSlot := (σ.node.apps app.id).channels_registerConnection app socketId
      rw [node_connect]
      exact .setApp fun t _ => eventAt_congr hSlot t c
  | frame now socketId text =>
    obtain ⟨conn, -, rfl⟩ := map_eq_some_iff.mp hStep
    exact keepsEvent_handleInbound ..
  | disconnect now socketId =>
    obtain ⟨conn, -, rfl⟩ := map_eq_some_iff.mp hStep
    exact keepsEvent_cleanupConnection ..
  | incoming now env =>
    cases hStep
    exact keepsEvent_incoming hRecorded now hOther
  | request appId request =>
    cases hStep
    split
    · exact .refl _
    · rename_i app hApp
      rw [← hRecorded.table _ app hApp] at hOther
      exact keepsEvent_respond σ.node hOther _
  | heartbeat appId =>
    obtain ⟨app, -, rfl⟩ := map_eq_some_iff.mp hStep
    exact .of_apps rfl
  | sweep now =>
    obtain rfl := Option.some.inj hStep
    exact .of_apps (apps_presenceCacheGc ..)
  | collect now =>
    cases hStep
    exact ⟨fun t ht => eventAt_gcEmptyCacheChannels _ ht c⟩
  | reload table =>
    cases hStep
    exact .of_apps rfl

end

theorem recorded_of_run {prims : Primitives} {nodeId : String} {table : AppTable}
    {run : List Action} {σ : ServerState}
    (hRun : exec (step prims) (new nodeId scaling table) run = some σ) : Recorded σ :=
  (always_of_invariant (fun _ _ _ h hStep => recorded_step h hStep)
    (recorded_new nodeId scaling table) run).of_exec hRun

/-- In every state a server reaches, an action other than a publication to the channel
leaves what a new subscriber is replayed, at every moment from the action on. -/
theorem replayed_unchanged (prims : Primitives) (nodeId : String) (scaling : Bool)
    (table : AppTable) (run : List Action) (σ σ' : ServerState) (action : Action)
    (app : Application) (c : String)
    (hRun : exec (step prims) (new nodeId scaling table) run = some σ)
    (hOther : ¬ action.PublishesTo app.id c) (hStep : step prims σ action = some σ')
    (t : Instant) (ht : action.time ≤ t) (socketId : String) (presence : Option PresenceMember) :
    replayed σ'.node t app c socketId presence = replayed σ.node t app c socketId presence := by
  rw [replayed_eq_eventAt, replayed_eq_eventAt]
  exact (keepsEvent_step (recorded_of_run hRun) hOther hStep).same t ht

/-- An event is published to a cache channel that nobody is in. -/
def storingRun : List Action :=
  [.request "app" (.publishEvent (fun _ => ⟨0, 0⟩) 0
    ⟨"news", .string "first", none, some "cache-room", none, none⟩)]

/-- The collection of empty cache channels leaves it to the next subscriber. -/
theorem storingRun_replayed : ∃ σ σ',
    exec (step examplePrims) (new "n1" true ⟨exampleTable, exampleTable_ids⟩) storingRun = some σ ∧
    step examplePrims σ (.collect 7) = some σ' ∧
    replayed σ.node 7 exampleApp "cache-room" "1.1" none = some ⟨"news", "first", "cache-room"⟩ ∧
    replayed σ'.node 7 exampleApp "cache-room" "1.1" none =
      replayed σ.node 7 exampleApp "cache-room" "1.1" none := by
  have hResult : (exec (step examplePrims) (new "n1" true ⟨exampleTable, exampleTable_ids⟩)
      storingRun).map (fun σ => replayed σ.node 7 exampleApp "cache-room" "1.1" none) =
        some (some ⟨"news", "first", "cache-room"⟩) := by decide
  obtain ⟨σ, hRun, hReplayed⟩ := Option.map_eq_some_iff.mp hResult
  exact ⟨σ, _, hRun, rfl, hReplayed,
    replayed_unchanged examplePrims "n1" true ⟨exampleTable, exampleTable_ids⟩ storingRun σ _
      (.collect 7) exampleApp "cache-room" hRun id rfl 7 le_rfl "1.1" none⟩

end Serving

end Zatat
