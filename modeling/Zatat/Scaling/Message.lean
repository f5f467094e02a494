import Zatat.Protocol.Presence

/-! # Messages on the scaling bus -/

namespace Zatat

def scalingVersion : Nat := 2

structure AppRef where
  id : String
  key : String
deriving DecidableEq, Repr

structure PresenceSnapshotMember where
  userId : String
  userInfo : Option Value
deriving Repr

structure ChannelCount where
  channel : String
  count : Nat
deriving DecidableEq, Repr

structure MetricsQuery where
  filterByPrefix : Option String
  info : Option String
  connectionsOnly : Bool
deriving DecidableEq, Repr

structure ChannelMetric where
  name : String
  occupied : Bool
  subscriptionCount : Nat
  userCount : Option Nat
  hasCachedPayload : Bool
  presenceUserIds : List String
deriving DecidableEq, Repr

inductive ScalingPayload where
  | Message (originNodeId channel event data : String) (exceptSocketId : Option String)
  | Terminate (socketId : String)
  | TerminateUser (originNodeId userId : String)
  | ClientEvent (originNodeId channel event data socketId : String) (userId : Option String)
  | PresenceSnapshot (nodeId channel : String) (members : List PresenceSnapshotMember)
  | UserEvent (originNodeId userId event data : String)
  | MetricsRequest (requestId requesterNodeId : String) (query : MetricsQuery)
  | MetricsResponse (requestId nodeId : String) (channels : List ChannelMetric)
      (connections : Nat)
  | MemberAdded (originNodeId channel userId : String) (userInfo : Option Value)
  | MemberRemoved (originNodeId channel userId : String)
      (webhookWithheld vacatedWithheld : Bool)
  | SubscriptionCount (originNodeId channel : String) (count : Nat) (vacatedWithheld : Bool)
  | UserOnline (originNodeId userId : String)
  | UserOffline (originNodeId userId : String)
  | ChannelCountSnapshot (nodeId : String) (counts : List ChannelCount)
  | UserSessionSnapshot (nodeId : String) (userIds : List String)

structure ScalingEnvelope where
  version : Nat
  seq : Nat
  app : AppRef
  payload : ScalingPayload

/-- The node a payload comes from; `Terminate` targets a socket and names none. -/
def payloadNodeId : ScalingPayload → Option String
  | .Message origin _ _ _ _ => some origin
  | .TerminateUser origin _ => some origin
  | .ClientEvent origin _ _ _ _ _ => some origin
  | .UserEvent origin _ _ _ => some origin
  | .MemberAdded origin _ _ _ => some origin
  | .MemberRemoved origin _ _ _ _ => some origin
  | .SubscriptionCount origin _ _ _ => some origin
  | .UserOnline origin _ => some origin
  | .UserOffline origin _ => some origin
  | .PresenceSnapshot node _ _ => some node
  | .MetricsResponse _ node _ _ => some node
  | .ChannelCountSnapshot node _ => some node
  | .UserSessionSnapshot node _ => some node
  | .MetricsRequest _ requester _ => some requester
  | .Terminate _ => none

end Zatat
