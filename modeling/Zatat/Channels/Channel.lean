import Zatat.Core.ChannelName
import Zatat.Core.Application
import Zatat.Lib.Map
import Zatat.Protocol.Outbound

/-! # One channel: members, presence reference counts, cached payload

A member's connection handle is the queue of its own socket, so the socket id,
the key of the member map, stands for it.
-/

namespace Zatat

open FiniteMap

structure Member where
  presence : Option PresenceMember
deriving Repr

def Member.user (m : Member) : Option String := m.presence.map PresenceMember.userId

structure CachedPayload where
  payload : EventPayload
  insertedAt : Instant

def CachedPayload.live (cacheTtl : Option Duration) (now : Instant) (e : CachedPayload) : Bool :=
  match cacheTtl with
  | none => true
  | some ttl => !decide (durationSince now e.insertedAt > ttl)

structure Channel where
  name : String
  kind : ChannelKind
  members : Map String Member
  userRefcounts : Option (Map String Nat)
  cachedPayload : Option CachedPayload
  cacheTtl : Option Duration
  cacheMissNotifiedAt : Option Instant

structure SubscribeResult where
  wasNew : Bool
  userAdded : Bool
  memberCount : Nat
deriving DecidableEq, Repr

structure UnsubscribeOutcome where
  wasMember : Bool
  userRemoved : Option String
  memberCount : Nat
  presence : Option PresenceMember

namespace Channel

def withCacheTtl (name : String) (cacheTtl : Option Duration) : Channel where
  name := name
  kind := ChannelKind.fromName name
  members := ∅
  userRefcounts := if (ChannelKind.fromName name).isPresence then some ∅ else none
  cachedPayload := none
  cacheTtl := cacheTtl
  cacheMissNotifiedAt := none

def len (ch : Channel) : Nat := ch.members.entries.length

def isEmpty (ch : Channel) : Bool := ch.members.entries.isEmpty

def contains (ch : Channel) (socketId : String) : Bool := decide (socketId ∈ ch.members)

def userCount (ch : Channel) : Nat :=
  match ch.userRefcounts with
  | some refs => refs.entries.length
  | none => ch.len

def hasUserId (ch : Channel) (userId : String) : Bool :=
  match ch.userRefcounts with
  | some refs => decide (userId ∈ refs)
  | none => false

/-- The payload a new subscriber would be replayed at `now`. An expired entry
is also cleared in the source, which no later reader can tell from leaving it. -/
def cachedPayloadAt (ch : Channel) (now : Instant) : Option EventPayload :=
  if ch.kind.isCache then
    (ch.cachedPayload.filter (CachedPayload.live ch.cacheTtl now)).map CachedPayload.payload
  else none

def setCachedPayload (ch : Channel) (now : Instant) (payload : EventPayload) : Channel :=
  if ch.kind.isCache then
    { ch with cachedPayload := some ⟨payload, now⟩, cacheMissNotifiedAt := none }
  else ch

def claimCacheMissNotification (ch : Channel) (now : Instant) : Bool × Channel :=
  match ch.cacheMissNotifiedAt with
  | some t =>
    if durationSince now t < cacheMissWebhookInterval then (false, ch)
    else (true, { ch with cacheMissNotifiedAt := some now })
  | none => (true, { ch with cacheMissNotifiedAt := some now })

def presenceSnapshot (ch : Channel) : Option PresenceData :=
  if ch.kind.isPresence then
    some (PresenceData.fromMembers (ch.members.entries.map fun e => e.2.presence))
  else none

/-- One more connection of a user; the flag says whether it is the first. -/
def incrementRef (refs : Map String Nat) (userId : String) : Bool × Map String Nat :=
  let n := (refs.lookup userId).getD 0
  (n == 0, refs.insert userId (n + 1))

/-- One connection of a user fewer; the flag says whether its entry went away. -/
def decrementRef (refs : Map String Nat) (userId : String) : Bool × Map String Nat :=
  match refs.lookup userId with
  | none => (false, refs)
  | some n => if n - 1 = 0 then (true, refs.erase userId) else (false, refs.insert userId (n - 1))

/-- The counts after a join, and whether the join is its user's first. -/
def joinRefs : Option (Map String Nat) → Option PresenceMember → Bool × Option (Map String Nat)
  | some refs, some pm => ((incrementRef refs pm.userId).1, some (incrementRef refs pm.userId).2)
  | refs, _ => (false, refs)

def subscribe (ch : Channel) (socketId : String) (presence : Option PresenceMember) :
    SubscribeResult × Channel :=
  if ch.contains socketId then (⟨false, false, ch.len⟩, ch)
  else
    let joined := joinRefs ch.userRefcounts presence
    let ch := { ch with
      userRefcounts := joined.2
      members := ch.members.insert socketId ⟨presence⟩ }
    (⟨true, joined.1, ch.len⟩, ch)

/-- The counts after a leave, and the user whose last connection it was. -/
def leaveRefs : Option (Map String Nat) → Option PresenceMember →
    Option String × Option (Map String Nat)
  | some refs, some pm =>
    (if (decrementRef refs pm.userId).1 then some pm.userId else none,
      some (decrementRef refs pm.userId).2)
  | refs, _ => (none, refs)

def unsubscribe (ch : Channel) (socketId : String) : UnsubscribeOutcome × Channel :=
  match ch.members.lookup socketId with
  | some member =>
    let left := leaveRefs ch.userRefcounts member.presence
    let ch := { ch with userRefcounts := left.2, members := ch.members.erase socketId }
    (⟨true, left.1, ch.len, member.presence⟩, ch)
  | none => (⟨false, none, ch.len, none⟩, ch)

/-- The sockets `send_to_members` hands a payload to. -/
def recipients (ch : Channel) (except : Option String) : List String :=
  ch.members.keys.filter fun s => except ≠ some s

end Channel

end Zatat
