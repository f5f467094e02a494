import Zatat.Channels.Incarnations
import Zatat.Lib.Alternation
import Zatat.Lib.Run
import Zatat.Ws.Histories

/-! # Concurrent joins and leaves on one node

A join holds the map entry and the transition lock and is one step. A leave is
four: find the object, remove the member under its lock, announce the leave
under the same lock, and remove the channel from the map if it is unused. The
other removals are single steps. Disconnecting is leaving each channel in turn.
-/

namespace Zatat.Churn

open Transition Alternation

inductive Progress where
  | idle
  | found (app : Application) (channel : String) (arc : Nat)
  | removed (app : Application) (channel : String) (arc : Nat) (outcome : UnsubscribeOutcome)
  | announced (app : Application) (channel : String)
  | rejected (app : Application) (channel : String)

structure State where
  slots : String → String → Incarnations
  progress : String → Progress
  server : Server

inductive Label where
  | join (now : Instant) (app : Application) (socketId channel : String) (pm : PresenceMember)
  | removeRejected (now : Instant) (socketId : String)
  | find (app : Application) (socketId channel : String)
  | remove (socketId : String)
  | announce (now : Instant) (socketId : String)
  | removeUnused (now : Instant) (socketId : String)
  | gcEmptyCacheChannel (now : Instant) (appId channel : String)
  | publish (now : Instant) (app : Application) (payload : EventPayload)

namespace State

def new (nodeId : String) (config : String → Option Application) : State where
  slots _ channel := Incarnations.new channel
  progress _ := .idle
  server := Server.new nodeId true config

def setSlot (σ : State) (appId channel : String) (inc : Incarnations) : State :=
  { σ with slots := Function.update σ.slots appId (Function.update (σ.slots appId) channel inc) }

def setProgress (σ : State) (socketId : String) (p : Progress) : State :=
  { σ with progress := Function.update σ.progress socketId p }

end State

def presenceFor (channel : String) (pm : PresenceMember) : Option PresenceMember :=
  if (ChannelKind.fromName channel).isPresence then some pm else none

def join (σ : State) (now : Instant) (app : Application) (socketId channel : String)
    (pm : PresenceMember) : Option State :=
  let presence := presenceFor channel pm
  let (arc, inc) := (σ.slots app.id channel).entryOrNew app channel
  if inc.holderAt arc = none then
    let admission := σ.server.admitJoin now app channel presence (inc.channelAt arc)
    if admission.admitted then
      let (r, ch) := (inc.channelAt arc).subscribe socketId presence
      let occupied := σ.server.occupiedOnPeers now app channel (ChannelKind.fromName channel)
      let srv := σ.server.onSubscribed now app channel socketId presence occupied
        admission.remotelyPresent ch r
      some { σ.setSlot app.id channel (inc.setObject arc ⟨ch, none⟩) with server := srv }
    else some ((σ.setSlot app.id channel inc).setProgress socketId (.rejected app channel))
  else none

/-- `None` when the channel is not in the map: there is nothing to leave. -/
def find (σ : State) (app : Application) (socketId channel : String) : State :=
  match (σ.slots app.id channel).current with
  | some arc => σ.setProgress socketId (.found app channel arc)
  | none => σ

def remove (σ : State) (app : Application) (socketId channel : String) (arc : Nat) :
    Option State :=
  let inc := σ.slots app.id channel
  if inc.holderAt arc = none then
    let (outcome, ch) := (inc.channelAt arc).unsubscribe socketId
    some ((σ.setSlot app.id channel (inc.setObject arc ⟨ch, some socketId⟩)).setProgress socketId
      (.removed app channel arc outcome))
  else none

def announce (σ : State) (now : Instant) (app : Application) (socketId channel : String)
    (arc : Nat) (outcome : UnsubscribeOutcome) : State :=
  let inc := σ.slots app.id channel
  let srv := σ.server.onUnsubscribed now app channel (inc.channelAt arc) outcome
  let σ := (σ.setSlot app.id channel (inc.setObject arc ⟨inc.channelAt arc, none⟩)).setProgress
    socketId (.announced app channel)
  { σ with server := srv }

def removeIf (σ : State) (now : Instant) (appId channel : String) : State :=
  σ.setSlot appId channel ((σ.slots appId channel).removeUnused now)

def publish (σ : State) (now : Instant) (app : Application) (payload : EventPayload) : State :=
  let (arc, inc) := (σ.slots app.id payload.channel).entryOrNew app payload.channel
  σ.setSlot app.id payload.channel
    (inc.setObject arc ⟨(inc.channelAt arc).setCachedPayload now payload, inc.holderAt arc⟩)

def step (σ : State) : Label → Option State
  | .join now app socketId channel pm =>
    match σ.progress socketId with
    | .idle => join σ now app socketId channel pm
    | _ => none
  | .removeRejected now socketId =>
    match σ.progress socketId with
    | .rejected app channel => some ((removeIf σ now app.id channel).setProgress socketId .idle)
    | _ => none
  | .find app socketId channel =>
    match σ.progress socketId with
    | .idle => some (find σ app socketId channel)
    | _ => none
  | .remove socketId =>
    match σ.progress socketId with
    | .found app channel arc => remove σ app socketId channel arc
    | _ => none
  | .announce now socketId =>
    match σ.progress socketId with
    | .removed app channel arc outcome => some (announce σ now app socketId channel arc outcome)
    | _ => none
  | .removeUnused now socketId =>
    match σ.progress socketId with
    | .announced app channel => some ((removeIf σ now app.id channel).setProgress socketId .idle)
    | _ => none
  | .gcEmptyCacheChannel now appId channel =>
    if (ChannelKind.fromName channel).isCache then some (removeIf σ now appId channel) else none
  | .publish now app payload =>
    if (ChannelKind.fromName payload.channel).isCache then some (publish σ now app payload)
    else none

def State.Quiescent (σ : State) : Prop := ∀ socketId, σ.progress socketId = .idle

/-- Receivers of the bus and of the webhooks see every change once and in order,
and between operations they have seen the last one. -/
structure InOrder (σ : State) : Prop where
  messages : ∀ appId channel u, Alternates false (σ.server.memberMessages appId channel u)
  reports : ∀ appId channel, Alternates false (σ.server.occupancyReports appId channel)
  lastMessage : σ.Quiescent → ∀ appId channel u,
    current false (σ.server.memberMessages appId channel u) = true ↔
      (σ.slots appId channel).Present u
  lastReport : σ.Quiescent → ∀ appId channel,
    current false (σ.server.occupancyReports appId channel) = true ↔
      (σ.slots appId channel).Occupied

def leavingOf (appId channel : String) : Progress → Option (Nat × UnsubscribeOutcome)
  | .removed app c arc outcome =>
    if app.id = appId ∧ c = channel then some (arc, outcome) else none
  | _ => none

def State.leaving (σ : State) (appId channel socketId : String) :
    Option (Nat × UnsubscribeOutcome) :=
  leavingOf appId channel (σ.progress socketId)

def AddsMember (σ : State) (now : Instant) (app : Application) (socketId channel : String)
    (pm : PresenceMember) : Prop :=
  let entry := (σ.slots app.id channel).entryOrNew app channel
  (σ.server.admitJoin now app channel (presenceFor channel pm)
    (entry.2.channelAt entry.1)).admitted = true ∧
  socketId ∉ (entry.2.channelAt entry.1).members

/-- No member is added to a channel while another member's removal from it, from
this object or an earlier one, is still to be announced. -/
def LeavesAnnounced (σ : State) : Label → Prop
  | .join now app socketId channel pm =>
    AddsMember σ now app socketId channel pm →
      ∀ s arc outcome, σ.leaving app.id channel s = some (arc, outcome) →
        outcome.wasMember = false
  | _ => True

end Zatat.Churn
