import Zatat.Protocol.Presence

/-! # Frames sent to clients

A frame is kept before it is printed as JSON: its event and the fields its text
is made of. An error of the protocol is a frame with its code and message.
-/

namespace Zatat

structure EventPayload where
  event : String
  data : String
  channel : String
deriving DecidableEq, Repr

inductive Frame where
  | subscriptionSucceeded (channel : String) (presence : Option PresenceData)
  | memberAdded (channel userId : String) (userInfo : Option Value)
  | memberRemoved (channel userId : String)
  | subscriptionCount (channel : String) (count : Nat)
  | cacheMiss (channel : String)
  | watchlistEvents (name : String) (userIds : List String)
  | event (payload : EventPayload)
  | clientEvent (event data channel : String) (userId : Option String)
  | errorWithMessage (code : Nat) (message : String)
  | signinSuccess (userData : String)
  | pong

inductive PusherError where
  | Unauthorized
  | InvalidMessageFormat
  | ClientEventsDisabled
  | NotChannelMember
deriving DecidableEq, Repr

def PusherError.code : PusherError → Nat
  | Unauthorized => 4009
  | InvalidMessageFormat => 4200
  | ClientEventsDisabled => 4301
  | NotChannelMember => 4301

def PusherError.message : PusherError → String
  | Unauthorized => "Connection is unauthorized"
  | InvalidMessageFormat => "Invalid message format"
  | ClientEventsDisabled => "The app does not have client messaging enabled"
  | NotChannelMember => "The client is not a member of the specified channel"

def PusherError.frame (err : PusherError) : Frame := .errorWithMessage err.code err.message

inductive Outbound where
  | text (frame : Frame)
  | ping
  | close (code : Nat) (reason : String)

structure Sent where
  app : String
  socket : String
  item : Outbound

end Zatat
