import Zatat.Channels.Manager
import Zatat.Scaling.Dispatcher
import Zatat.Webhooks.Deliver

/-! # The state of one server

`Server` is what an announcement reads and writes: the live application table,
the dispatcher, the webhooks enqueued so far and the items handed to
connections so far, both in order. `Node` adds the channel manager; an
application without a slot has an empty one.
-/

namespace Zatat

open FiniteMap

structure Server where
  config : String → Option Application
  dispatcher : EventDispatcher
  webhooks : List (String × WebhookEvent)
  sent : List Sent

structure Node extends Server where
  apps : String → AppChannels

namespace Server

def new (nodeId : String) (scalingEnabled : Bool)
    (config : String → Option Application) : Server :=
  ⟨config, EventDispatcher.new nodeId scalingEnabled, [], []⟩

def enqueueWebhook (srv : Server) (appId : String) (event : WebhookEvent) : Server :=
  { srv with webhooks := srv.webhooks ++ [(appId, event)] }

def sendAll (srv : Server) (appId : String) (sockets : List String) (item : Outbound) : Server :=
  { srv with sent := srv.sent ++ sockets.map fun s => ⟨appId, s, item⟩ }

/-- `Channel::broadcast_protocol`, also `broadcast_client_event`: never cached. -/
def broadcastProtocol (srv : Server) (appId : String) (ch : Channel) (frame : Frame)
    (except : Option String) : Server :=
  srv.sendAll appId (ch.recipients except) (.text frame)

def presenceCache (srv : Server) : PresenceCache := srv.dispatcher.presenceCache

def withPresenceCache (srv : Server) (cache : PresenceCache) : Server :=
  { srv with dispatcher := { srv.dispatcher with presenceCache := cache } }

def occupiedOnPeers (srv : Server) (now : Instant) (app : Application) (channel : String)
    (kind : ChannelKind) : Bool :=
  if kind.isPresence then !(srv.presenceCache.remoteMembersFor now app.id channel).isEmpty
  else decide (srv.dispatcher.peerChannelCounts.sum now app.id channel > 0)

def known (srv : Server) : EventDispatcher.PeerKnowledge := srv.dispatcher.known

end Server

namespace Node

def new (nodeId : String) (scalingEnabled : Bool)
    (config : String → Option Application) : Node :=
  { Server.new nodeId scalingEnabled config with apps := fun _ => AppChannels.empty }

def setServer (node : Node) (srv : Server) : Node := { node with toServer := srv }

def setApp (node : Node) (appId : String) (slot : AppChannels) : Node :=
  { node with apps := Function.update node.apps appId slot }

def findChannel (node : Node) (appId name : String) : Option Channel :=
  (node.apps appId).findChannel name

def sentSince (node after : Node) : List Sent := after.sent.drop node.sent.length

def webhooksSince (node after : Node) : List (String × WebhookEvent) :=
  after.webhooks.drop node.webhooks.length

end Node

end Zatat
