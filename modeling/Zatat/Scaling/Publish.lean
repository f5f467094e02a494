import Zatat.Protocol.Primitives
import Zatat.Scaling.Incoming

/-! # Publishing events

An event is handed to the local sockets and put on the bus for the peers. Data
for an encrypted channel is encrypted first, or the event is refused.
-/

namespace Zatat

inductive PublishError where
  | MissingMasterKey
  | InvalidMasterKey (reason : String)
  | EncryptionFailed (reason : String)
deriving DecidableEq, Repr

def PublishError.display : PublishError → String
  | MissingMasterKey =>
    "plaintext data for an encrypted channel and no encryption_master_key is configured"
  | InvalidMasterKey e => "invalid encryption_master_key: " ++ e
  | EncryptionFailed e => "encryption failed: " ++ e

/-- What a publication draws from outside: the time and the nonce. -/
structure Moment where
  now : Instant
  nonce : Nat

section

variable (prims : Primitives)

def maybeEncrypt (nonce : Nat) (app : Application) (kind : ChannelKind)
    (channelName data : String) : Except PublishError String :=
  if !kind.isEncrypted || looksEncrypted prims data then .ok data
  else match app.encryptionMasterKey with
    | none => .error .MissingMasterKey
    | some masterB64 =>
      match decodeMasterKey prims masterB64 with
      | .error err => .error (.InvalidMasterKey err.display)
      | .ok master =>
        match prims.encryptPayload nonce data (deriveSharedSecret prims channelName master) with
        | .error err => .error (.EncryptionFailed err.display)
        | .ok sealedData => .ok sealedData

def validatePublish (app : Application) (channelName data : String) : Except PublishError Unit :=
  if !(ChannelKind.fromName channelName).isEncrypted || looksEncrypted prims data then .ok ()
  else match app.encryptionMasterKey with
    | none => .error .MissingMasterKey
    | some masterB64 =>
      match decodeMasterKey prims masterB64 with
      | .error err => .error (.InvalidMasterKey err.display)
      | .ok _ => .ok ()

theorem maybeEncrypt_of_validatePublish {prims : Primitives}
    (hEncrypts : ∀ nonce text key, ∃ sealedData,
      prims.encryptPayload nonce text key = .ok sealedData)
    {app : Application} {channelName data : String}
    (h : validatePublish prims app channelName data = .ok ()) (nonce : Nat) :
    ∃ sealedData, maybeEncrypt prims nonce app (ChannelKind.fromName channelName) channelName data =
      .ok sealedData := by
  rw [validatePublish] at h
  rw [maybeEncrypt]
  split
  · exact ⟨data, rfl⟩
  · rename_i hPlain
    rw [if_neg hPlain] at h
    cases hKey : app.encryptionMasterKey with
    | none =>
      rw [hKey] at h
      cases h
    | some masterB64 =>
      rw [hKey] at h
      dsimp only at h ⊢
      cases hMaster : decodeMasterKey prims masterB64 with
      | error err =>
        rw [hMaster] at h
        cases h
      | ok master =>
        dsimp only
        obtain ⟨sealedData, hSealed⟩ :=
          hEncrypts nonce data (deriveSharedSecret prims channelName master)
        exact ⟨sealedData, by rw [hSealed]⟩

end

namespace Node

def publishMessage (node : Node) (app : Application) (channelName event data : String)
    (except : Option String) : Node :=
  { node with
    dispatcher := node.dispatcher.spawnPublish (EventDispatcher.envelope app 0
      (.Message node.dispatcher.nodeId channelName event data except)) }

def dispatchMessage (prims : Primitives) (node : Node) (moment : Moment) (app : Application)
    (channelName event data : String) (except : Option String) :
    Except PublishError Unit × Node :=
  match maybeEncrypt prims moment.nonce app (ChannelKind.fromName channelName) channelName data with
  | .error err => (.error err, node)
  | .ok data =>
    let node := node.broadcastLocallyWithApp moment.now app channelName event data except
    (.ok (), if node.dispatcher.scalingEnabled then
        node.publishMessage app channelName event data except
      else node)

def publishClientEvent (node : Node) (app : Application) (channel event data socketId : String)
    (userId : Option String) : Node :=
  if node.dispatcher.scalingEnabled then
    { node with
      dispatcher := node.dispatcher.spawnPublish (EventDispatcher.envelope app 0
        (.ClientEvent node.dispatcher.nodeId channel event data socketId userId)) }
  else node

def dispatchUserEvent (node : Node) (app : Application) (userId event data : String) : Node :=
  let node := node.deliverUserEventLocally app.id userId event data
  if node.dispatcher.scalingEnabled then
    { node with
      dispatcher := node.dispatcher.spawnPublish (EventDispatcher.envelope app 0
        (.UserEvent node.dispatcher.nodeId userId event data)) }
  else node

def openRequest (node : Node) (requestId : String) : Node :=
  { node with
    dispatcher := { node.dispatcher with
      metricsInflight := node.dispatcher.metricsInflight.insert requestId [] } }

def closeRequest (node : Node) (requestId : String) : Node :=
  { node with
    dispatcher := { node.dispatcher with
      metricsInflight := node.dispatcher.metricsInflight.erase requestId } }

/-- The question `ask_fleet` sends. Answers are collected under the request's id
until the request is closed. -/
def askFleet (node : Node) (app : Application) (requestId : String) (query : MetricsQuery) :
    Node :=
  if node.dispatcher.scalingEnabled then
    let node := node.openRequest requestId
    { node with
      dispatcher := node.dispatcher.spawnPublish (EventDispatcher.envelope app 0
        (.MetricsRequest requestId node.dispatcher.nodeId query)) }
  else node

def publishUserOnline (node : Node) (app : Application) (userId : String) : Node :=
  { node with
    dispatcher := node.dispatcher.spawnPublish (EventDispatcher.envelope app 0
      (.UserOnline node.dispatcher.nodeId userId)) }

def publishUserOffline (node : Node) (app : Application) (userId : String) : Node :=
  { node with
    dispatcher := node.dispatcher.spawnPublish (EventDispatcher.envelope app 0
      (.UserOffline node.dispatcher.nodeId userId)) }

def publishTerminateUser (node : Node) (app : Application) (userId : String) : Node :=
  if node.dispatcher.scalingEnabled then
    { node with
      dispatcher := node.dispatcher.spawnPublish (EventDispatcher.envelope app 0
        (.TerminateUser node.dispatcher.nodeId userId)) }
  else node

end Node

end Zatat
