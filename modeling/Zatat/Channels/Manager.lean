import Zatat.Channels.Channel
import Zatat.Core.Application

/-! # The channel manager's slot of one application

The closures of `subscribe_with` and `unsubscribe_with` only read the channel
and announce; here they run on the channel the operation returns. A connection
handle is its socket id, and the per-user locks hold no data.
-/

namespace Zatat

open FiniteMap

structure AppChannels where
  connections : KeySet String
  channels : Map String Channel
  userIndex : Map String (List String)
  watchers : Map String (KeySet String)

structure SubscribeOutcome where
  wasNew : Bool
  userAdded : Bool
  memberCount : Nat
  presenceSnapshot : Option PresenceData
  cachedPayload : Option EventPayload
  kind : ChannelKind

namespace AppChannels

def empty : AppChannels := ⟨∅, ∅, ∅, ∅⟩

def cacheTtlOf (app : Application) : Option Duration := app.cacheTtlSeconds.map Duration.fromSecs

/-- The entry `or_insert_with` hands out: the stored channel or a new one. -/
def entryOrNew (slot : AppChannels) (app : Application) (name : String) : Channel :=
  (slot.channels.lookup name).getD (Channel.withCacheTtl name (cacheTtlOf app))

def setChannel (slot : AppChannels) (name : String) (ch : Channel) : AppChannels :=
  { slot with channels := slot.channels.insert name ch }

def removable (now : Instant) (ch : Channel) : Bool :=
  ch.isEmpty && (ch.cachedPayloadAt now).isNone

/-- `remove_if` with the test all removals share. -/
def removeUnused (slot : AppChannels) (now : Instant) (name : String) : AppChannels :=
  match slot.channels.lookup name with
  | some ch =>
    if removable now ch then { slot with channels := slot.channels.erase name } else slot
  | none => slot

def findChannel (slot : AppChannels) (name : String) : Option Channel := slot.channels.lookup name

def subscribeWith (slot : AppChannels) (now : Instant) (app : Application)
    (name socketId : String) (presence : Option PresenceMember) (admits : Channel → Bool) :
    Option (SubscribeResult × SubscribeOutcome × Channel) × AppChannels :=
  let ch := slot.entryOrNew app name
  if admits ch then
    let joined := ch.subscribe socketId presence
    let outcome : SubscribeOutcome :=
      ⟨joined.1.wasNew, joined.1.userAdded, joined.1.memberCount, joined.2.presenceSnapshot,
        if joined.2.kind.isCache then joined.2.cachedPayloadAt now else none, joined.2.kind⟩
    (some (joined.1, outcome, joined.2), slot.setChannel name joined.2)
  else (none, (slot.setChannel name ch).removeUnused now name)

def unsubscribeWith (slot : AppChannels) (now : Instant) (name socketId : String) :
    Option (UnsubscribeOutcome × Channel) × AppChannels :=
  match slot.channels.lookup name with
  | none => (none, slot)
  | some ch =>
    let left := ch.unsubscribe socketId
    (some left, (slot.setChannel name left.2).removeUnused now name)

def getOrCreateCacheChannel (slot : AppChannels) (app : Application) (name : String) :
    Option Channel × AppChannels :=
  if (ChannelKind.fromName name).isCache then
    (some (slot.entryOrNew app name), slot.setChannel name (slot.entryOrNew app name))
  else (slot.findChannel name, slot)

def gcEmptyCacheChannels (slot : AppChannels) (now : Instant) : AppChannels :=
  { slot with
    channels := retain (fun _ ch => !(ch.kind.isCache && removable now ch)) slot.channels }

def isUserOnline (slot : AppChannels) (userId : String) : Bool :=
  match slot.userIndex.lookup userId with
  | some sockets => !sockets.isEmpty
  | none => false

def connectionsForUser (slot : AppChannels) (userId : String) : List String :=
  ((slot.userIndex.lookup userId).getD []).filter fun sid => decide (sid ∈ slot.connections)

def watchersOf (slot : AppChannels) (watched : String) : List String :=
  match slot.watchers.lookup watched with
  | some watchers => watchers.keys
  | none => []

def watcherConnections (slot : AppChannels) (watched : String) : List String :=
  (slot.watchersOf watched).flatMap slot.connectionsForUser

def localUserIds (slot : AppChannels) : List String :=
  (slot.userIndex.entries.filter fun e => !e.2.isEmpty).map fun e => e.1

end AppChannels

end Zatat
