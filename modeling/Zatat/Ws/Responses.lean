import Zatat.Channels.Counts
import Zatat.Ws.Serving

/-! # Replies

`handle_inbound` returns its reply to the loop of the connection, which writes it to the
socket ahead of everything that is still queued. Here a reply is returned as in the
source; everywhere else it is taken as queued where it was decided, and the two ways to
put it differ in nothing else.
-/

namespace Zatat

open FiniteMap AppChannels List

def Frame.isError : Frame → Bool
  | .errorWithMessage _ _ => true
  | _ => false

namespace Node

/-- `handle_subscribe` from the parsed request on: the reply, and the node. -/
def answerSubscribe (node : Node) (now : Instant) (app : Application)
    (socketId channel : String) (presence : Option PresenceMember) : Frame × Node :=
  (node.decideSubscribe now app socketId channel presence).returned

end Node

/-- The reply to a frame, and the node and the connection after it. -/
def Responding.handleInbound (prims : Primitives) (node : Node) (now : Instant)
    (conn : Connection) (text : String) : Option Frame × Node × Connection :=
  let answer := Inbound.answerInbound prims node now conn text
  (answer.1.reply, answer.1.rest answer.1.decided, answer.2)

/-! ## A reply returned and a reply queued -/

namespace Node

def withSent (node : Node) (sent : List Sent) : Node :=
  { node with toServer := { node.toServer with sent := sent } }

/-- The two states differ in the reply alone: the second has it among what was queued
since `node`, at the place where it was decided. -/
def Answered (node : Node) (appId socketId : String) (reply : Option Frame)
    (returned queued : Node) : Prop :=
  ∃ before after : List Sent, returned.sent = node.sent ++ (before ++ after) ∧
    queued = returned.withSent (node.sent ++ (before ++
      (reply.toList.map fun frame => ⟨appId, socketId, .text frame⟩) ++ after))

theorem withSent_self (node : Node) : node.withSent node.sent = node := rfl

theorem Answered.none (node returned : Node) (appId socketId : String)
    (h : ∃ queue, returned.sent = node.sent ++ queue) :
    Answered node appId socketId none returned returned := by
  obtain ⟨queue, hQueue⟩ := h
  refine ⟨queue, [], by rw [append_nil, hQueue], ?_⟩
  rw [Option.toList_none, map_nil, append_nil, append_nil, ← hQueue, withSent_self]

/-- The operation reads nothing of what was sent, and only adds to it. -/
def Appends (node : Node) (f : Node → Node) : Prop :=
  ∃ queue : List Sent, ∀ sent, f (node.withSent sent) = (f node).withSent (sent ++ queue)

namespace Appends

variable {node : Node} {f g : Node → Node}

theorem of_eq (h : ∀ sent, f (node.withSent sent) = (f node).withSent sent) : Appends node f :=
  ⟨[], fun sent => by rw [append_nil, h]⟩

theorem unchanged (node : Node) : Appends node (fun n => n) := .of_eq fun _ => rfl

theorem ite (p : Prop) [Decidable p] (h : Appends node f) (h' : Appends node g) :
    Appends node (fun n => if p then f n else g n) := by
  by_cases hp : p
  · simpa only [if_pos hp] using h
  · simpa only [if_neg hp] using h'

end Appends

variable (node : Node) (now : Instant) (app : Application) (appId socketId channel userId : String)
  (watchlist : Option (List String)) (presence : Option PresenceMember)

def replayFrame (channel : String) : Option EventPayload → Frame
  | some payload => .event payload
  | none => .cacheMiss channel

theorem replayCache_withSent (cachedPayload : Option EventPayload) (sent : List Sent) :
    (node.withSent sent).replayCache now app socketId channel cachedPayload =
      (node.replayCache now app socketId channel cachedPayload).withSent
        (sent ++ [⟨app.id, socketId, .text (replayFrame channel cachedPayload)⟩]) := by
  cases cachedPayload with
  | some payload => rfl
  | none =>
    have hFind : (node.withSent sent).findChannel app.id channel =
        node.findChannel app.id channel := rfl
    simp only [replayCache, hFind]
    cases node.findChannel app.id channel with
    | none => rfl
    | some ch =>
      dsimp only
      split <;> rfl

/-! ## The answers to a join -/

theorem Answered.replyAfter {node joined : Node} (h : ∃ queue, joined.sent = node.sent ++ queue)
    (appId socketId : String) (frame : Frame) :
    Answered node appId socketId (some frame) joined (joined.replyTo appId socketId frame) := by
  obtain ⟨queue, hQueue⟩ := h
  refine ⟨queue, [], by rw [append_nil, hQueue], ?_⟩
  rw [append_nil, ← append_assoc, ← hQueue]
  rfl

theorem Answered.andThen {node returned queued : Node} {appId socketId : String}
    {reply : Option Frame} {f : Node → Node}
    (h : Answered node appId socketId reply returned queued) (hF : Appends returned f) :
    Answered node appId socketId reply (f returned) (f queued) := by
  obtain ⟨before, after, hReturned, hQueued⟩ := h
  obtain ⟨queue, hF⟩ := hF
  refine ⟨before, after ++ queue, ?_, ?_⟩
  · have hSent : (f returned).sent = returned.sent ++ queue :=
      congrArg (fun later : Node => later.sent) (hF returned.sent)
    rw [hSent, hReturned]
    simp only [append_assoc]
  · rw [hQueued, hF]
    simp only [append_assoc]

theorem answerSubscribe_rejected
    (hReject : (node.admission now app channel presence).admitted = false) :
    node.answerSubscribe now app socketId channel presence =
      (.errorWithMessage 4301 "Presence channel is over capacity",
        node.setApp app.id (((node.apps app.id).setChannel channel
          ((node.apps app.id).entryOrNew app channel)).removeUnused now channel)) := by
  rw [answerSubscribe, decideSubscribe_rejected _ _ _ _ _ _ hReject]
  rfl

theorem answerSubscribe_eq (hAdmit : (node.admission now app channel presence).admitted = true) :
    node.answerSubscribe now app socketId channel presence =
      (node.joinReply now app socketId channel presence,
        node.replayed now app socketId channel presence
          (node.announced now app socketId channel presence)) := by
  rw [answerSubscribe, decideSubscribe_admitted _ _ _ _ _ _ hAdmit]
  rfl

theorem handleSubscribe_eq (hAdmit : (node.admission now app channel presence).admitted = true) :
    node.handleSubscribe now app socketId channel presence =
      node.replayed now app socketId channel presence
        ((node.announced now app socketId channel presence).replyTo app.id socketId
          (node.joinReply now app socketId channel presence)) :=
  node.handleSubscribe_admitted now app socketId channel presence hAdmit

end Node

namespace Answer

open Node

/-- Up to its reply the handler only adds to what `node` had sent, and so does the rest of
it, which reads nothing of what was sent. -/
structure Adds (node : Node) (answer : Answer (Option Frame)) : Prop where
  decided : ∃ queue, answer.decided.sent = node.sent ++ queue
  rest : Appends answer.decided answer.rest

theorem Adds.answered {node : Node} {answer : Answer (Option Frame)} (h : answer.Adds node)
    (appId socketId : String) : Answered node appId socketId answer.reply
      (answer.rest answer.decided) (answer.queued appId socketId) := by
  obtain ⟨reply, decided, rest⟩ := answer
  cases reply with
  | none => exact (Answered.none _ _ _ _ h.decided).andThen h.rest
  | some frame => exact (Answered.replyAfter h.decided ..).andThen h.rest

end Answer

namespace Serving

open Node Answer

variable {prims : Primitives} {node : Node} {now : Instant} {conn : Connection} {text : String}
  {answer : Answer (Option Frame) × Connection}

end Serving

namespace Responding

open Node

/-- A frame is handled alike in both ways to put the reply. -/
def Agrees (node : Node) (appId socketId : String) (answer : Option Frame × Node × Connection)
    (handled : Node × Connection) : Prop :=
  Answered node appId socketId answer.1 answer.2.1 handled.1 ∧ handled.2 = answer.2.2

end Responding

/-! ## A refusal changes nothing -/

def AppChannels.usedChannel (slot : AppChannels) (now : Instant) (name : String) :
    Option Channel :=
  (slot.findChannel name).filter fun ch => !removable now ch

/-- Nothing was sent, published or enqueued, and the channels in use, the connections,
the user index and the watch sets are the same. -/
structure Node.Untouched (now : Instant) (node after : Node) : Prop where
  server : after.toServer = node.toServer
  channels : ∀ a c, (after.apps a).usedChannel now c = (node.apps a).usedChannel now c
  connections : ∀ a, (after.apps a).connections = (node.apps a).connections
  userIndex : ∀ a, (after.apps a).userIndex = (node.apps a).userIndex
  watchers : ∀ a, (after.apps a).watchers = (node.apps a).watchers

theorem Node.Untouched.refl (now : Instant) (node : Node) : Untouched now node node :=
  ⟨rfl, fun _ _ => rfl, fun _ => rfl, fun _ => rfl, fun _ => rfl⟩

namespace AppChannels

variable (slot : AppChannels) (now : Instant) (name : String)

theorem removable_withCacheTtl (ttl : Option Duration) :
    removable now (Channel.withCacheTtl name ttl) = true := by
  rw [removable, Channel.cachedPayloadAt]
  split <;> rfl

theorem connections_removeUnused : (slot.removeUnused now name).connections = slot.connections := by
  rw [removeUnused]
  split
  · split <;> rfl
  · rfl

theorem watchers_removeUnused : (slot.removeUnused now name).watchers = slot.watchers := by
  rw [removeUnused]
  split
  · split <;> rfl
  · rfl

theorem usedChannel_withdrawn (app : Application) (name c : String) :
    ((slot.setChannel name (slot.entryOrNew app name)).removeUnused now name).usedChannel now c =
      slot.usedChannel now c := by
  rw [usedChannel, findChannel_removeUnused, findChannel_setChannel, findChannel_setChannel,
    if_pos rfl, usedChannel]
  by_cases hc : c = name
  · rw [if_pos hc, hc, Option.filter_filter, entryOrNew, findChannel]
    simp only [Bool.and_self]
    cases slot.channels.lookup name with
    | none => rw [Option.getD_none, Option.filter_some, removable_withCacheTtl]; rfl
    | some ch => rfl
  · rw [if_neg hc, if_neg hc]

end AppChannels

namespace Node

theorem untouched_withdrawn (node : Node) (now : Instant) (app : Application) (channel : String) :
    Untouched now node (node.setApp app.id (((node.apps app.id).setChannel channel
      ((node.apps app.id).entryOrNew app channel)).removeUnused now channel)) := by
  have hSlot {β : Type} (part : AppChannels → β) (h : part (((node.apps app.id).setChannel channel
      ((node.apps app.id).entryOrNew app channel)).removeUnused now channel) =
      part (node.apps app.id)) (a : String) :
      part ((node.setApp app.id (((node.apps app.id).setChannel channel
        ((node.apps app.id).entryOrNew app channel)).removeUnused now channel)).apps a) =
        part (node.apps a) := by
    rw [setApp]
    dsimp only
    rw [Function.update_apply]
    split
    · rename_i ha
      rw [h, ha]
    · rfl
  exact {
    server := rfl
    channels := fun a c => hSlot (fun slot => slot.usedChannel now c) (usedChannel_withdrawn ..) a
    connections := hSlot _ (connections_removeUnused ..)
    userIndex := hSlot _ (userIndex_removeUnused ..)
    watchers := hSlot _ (watchers_removeUnused ..) }

end Node

/-- The connection and all that the node holds in use are as before, if the answer is a
refusal. -/
theorem Serving.Answers.untouched {prims : Primitives} {node : Node} {now : Instant}
    {conn : Connection} {text : String} {answer : Answer (Option Frame) × Connection}
    (h : Answers prims node now conn text answer) {frame : Frame}
    (hReply : answer.1.reply = some frame) (hError : frame.isError = true) :
    answer.2 = conn ∧ Node.Untouched now node (answer.1.rest answer.1.decided) := by
  cases h with
  | replied => exact ⟨rfl, .refl now node⟩
  | @subscribe _ channel presence =>
    cases hAdmit : (node.admission now (node.liveApp conn) channel presence).admitted with
    | false =>
      rw [Node.decideSubscribe_rejected _ _ _ _ _ _ hAdmit]
      exact ⟨rfl, Node.untouched_withdrawn ..⟩
    | true =>
      rw [Node.decideSubscribe_admitted _ _ _ _ _ _ hAdmit] at hReply
      obtain rfl := Option.some.inj hReply
      rw [Node.joinReply] at hError
      split at hError <;> cases hError
  | unsubscribe | client | ignored => cases hReply
  | signin =>
    obtain rfl := Option.some.inj hReply
    cases hError

namespace Responding

open Node

/-- A frame that is answered with an error has changed nothing. -/
theorem error_reply_untouched (prims : Primitives) (node : Node) (now : Instant)
    (conn : Connection) (text : String)
    (frame : Frame) (hReply : (handleInbound prims node now conn text).1 = some frame)
    (hError : frame.isError = true) : (handleInbound prims node now conn text).2.2 = conn ∧
      Untouched now node (handleInbound prims node now conn text).2.1 :=
  (Serving.answers_answerInbound prims node now conn text).untouched hReply hError

def crowdPrims : Primitives :=
  { examplePrims with
    fromStr := fun text =>
      if text = "ana" then some (.object [("user_id", .string "ana")]) else none
    parseInbound := fun _ => some ⟨"pusher:subscribe",
      .object [("channel", .string "presence-room"),
        ("auth", .string "key:secret/1.1:presence-room:ana"), ("channel_data", .string "ana")],
      none⟩ }

def crowdApp : Application := { exampleApp with maxPresenceMembersPerChannel := 0 }

def crowdNode : Node := Node.new "n1" true fun _ => some crowdApp

theorem crowded_join_untouched :
    (handleInbound crowdPrims crowdNode 0 (.new crowdApp "1.1") "join").1 =
      some (.errorWithMessage 4301 "Presence channel is over capacity") ∧
    (handleInbound crowdPrims crowdNode 0 (.new crowdApp "1.1") "join").2.2 =
      .new crowdApp "1.1" ∧
    Untouched 0 crowdNode
      (handleInbound crowdPrims crowdNode 0 (.new crowdApp "1.1") "join").2.1 := by
  have hReply : (handleInbound crowdPrims crowdNode 0 (.new crowdApp "1.1") "join").1 =
      some (.errorWithMessage 4301 "Presence channel is over capacity") := by rfl
  exact ⟨hReply, error_reply_untouched crowdPrims _ 0 _ "join" _ hReply rfl⟩

end Responding

end Zatat
