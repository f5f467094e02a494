import Mathlib.Data.Set.Insert
import Zatat.Lib.Replica
import Zatat.Ws.Roster
import Zatat.Ws.Tasks

/-! # Presence rosters replicated over the bus

Any number of senders, each with its members of one presence channel, and one
receiver. On a sender the joins and leaves are serialized; each is a change of
the membership, then the allocation of a number, then the enqueueing of the live
message. The heartbeat runs beside them in steps of its own. Each sender's
messages reach the receiver in the order in which they were enqueued.
-/

namespace Zatat.Replication

open FiniteMap EventDispatcher Transition

inductive LiveUpdate where
  | joined (pm : PresenceMember)
  | left (userId : String) (webhookWithheld vacatedWithheld : Bool)

def LiveUpdate.update : LiveUpdate → PresenceUpdate
  | .joined pm => .added pm.userId pm.userInfo
  | .left u webhookWithheld vacatedWithheld => .removed u webhookWithheld vacatedWithheld

inductive LivePhase where
  | idle
  | mutated (update : LiveUpdate)
  | numbered (update : LiveUpdate) (seq : Nat)

inductive BeatPhase where
  | idle
  | numbered (seq : Nat)
  | captured (seq : Nat) (roster : PresenceData)

structure Sender where
  channel : Channel
  dispatcher : EventDispatcher
  live : LivePhase
  beat : BeatPhase

def Sender.new (nodeId name : String) : Sender :=
  ⟨Channel.withCacheTtl name none, EventDispatcher.new nodeId true, .idle, .idle⟩

inductive Action where
  | join (socketId : String) (pm : PresenceMember)
  | leave (socketId : String) (webhookWithheld vacatedWithheld : Bool)
  | allocate
  | enqueue
  | beatAllocate
  | beatCapture
  | beatEnqueue
  /-- The counter is shared: some other message takes a number. -/
  | skip

/-- The roster as the heartbeat publishes it; an empty one is not published. -/
def Sender.publishCaptured (sender : Sender) (app : Application) (name : String) (seq : Nat)
    (roster : PresenceData) : EventDispatcher :=
  if roster.count = 0 then sender.dispatcher
  else sender.dispatcher.publishPresenceSnapshot app name
    (roster.hash.entries.map snapshotMember) seq

def Sender.step (app : Application) (name : String) (sender : Sender) : Action → Option Sender
  | .join s pm =>
    match sender.live with
    | .idle => some { sender with
        channel := (sender.channel.subscribe s (some pm)).2
        live := if (sender.channel.subscribe s (some pm)).1.userAdded then .mutated (.joined pm)
          else .idle }
    | _ => none
  | .leave s webhookWithheld vacatedWithheld =>
    match sender.live with
    | .idle => some { sender with
        channel := (sender.channel.unsubscribe s).2
        live := match (sender.channel.unsubscribe s).1.userRemoved with
          | some u => .mutated (.left u webhookWithheld vacatedWithheld)
          | none => .idle }
    | _ => none
  | .allocate =>
    match sender.live with
    | .mutated update => some { sender with
        dispatcher := sender.dispatcher.nextSeq.2
        live := .numbered update sender.dispatcher.nextSeq.1 }
    | _ => none
  | .enqueue =>
    match sender.live with
    | .numbered update seq => some { sender with
        dispatcher := sender.dispatcher.spawnPublish
          (envelope app seq (update.update.payload sender.dispatcher.nodeId name))
        live := .idle }
    | _ => none
  | .beatAllocate =>
    match sender.beat with
    | .idle => some { sender with
        dispatcher := sender.dispatcher.nextSeq.2
        beat := .numbered sender.dispatcher.nextSeq.1 }
    | _ => none
  | .beatCapture =>
    match sender.beat, sender.channel.presenceSnapshot with
    | .numbered seq, some roster => some { sender with beat := .captured seq roster }
    | _, _ => none
  | .beatEnqueue =>
    match sender.beat with
    | .captured seq roster => some { sender with
        dispatcher := sender.publishCaptured app name seq roster
        beat := .idle }
    | _ => none
  | .skip => some { sender with dispatcher := sender.dispatcher.nextSeq.2 }

structure System where
  senders : String → Sender
  delivered : String → Nat
  receiver : Node

def System.new (name receiverId : String) (config : String → Option Application) : System :=
  ⟨fun n => Sender.new n name, fun _ => 0, Node.new receiverId true config⟩

inductive Label where
  | send (node : String) (action : Action)
  | deliver (node : String) (now : Instant)
  /-- The receiver has subscribers of its own. -/
  | join (now : Instant) (socketId : String) (pm : PresenceMember)
  | leave (now : Instant) (socketId : String)

/-- A sender is another node than the receiver. -/
def step (app : Application) (name : String) (σ : System) : Label → Option System
  | .send n action =>
    if n = σ.receiver.dispatcher.nodeId then none
    else ((σ.senders n).step app name action).map fun sender =>
      { σ with senders := Function.update σ.senders n sender }
  | .deliver n now =>
    if n = σ.receiver.dispatcher.nodeId then none
    else (σ.senders n).dispatcher.published[σ.delivered n]?.map fun env =>
      { σ with
        delivered := Function.update σ.delivered n (σ.delivered n + 1)
        receiver := σ.receiver.handleIncoming now env }
  | .join now s pm =>
    some { σ with receiver := σ.receiver.handleSubscribe now app s name (some pm) }
  | .leave now s => some { σ with receiver := σ.receiver.leaveChannel now app s name }

/-- No join or leave and no heartbeat of the sender is in progress, and everything
it enqueued has been delivered. -/
structure AtRest (σ : System) (n : String) : Prop where
  live : (σ.senders n).live = .idle
  beat : (σ.senders n).beat = .idle
  delivered : σ.delivered n = (σ.senders n).dispatcher.published.length

end Zatat.Replication
