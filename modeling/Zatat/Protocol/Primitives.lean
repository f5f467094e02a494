import Zatat.Protocol.Presence

/-! # The libraries the protocol rests on

JSON, base64 and the cryptographic functions are parameters of the model: what
is proved holds whatever they compute, unless a statement assumes something of
them. Encrypted payloads are read and their keys derived with them.
-/

namespace Zatat

namespace Value

def get (key : String) : Value → Option Value
  | .object fields => (fields.find? fun f => f.1 == key).map Prod.snd
  | _ => none

def asStr : Value → Option String
  | .string text => some text
  | _ => none

/-- A user id is a string or a number, taken as it is printed. -/
def asUserId : Value → Option String
  | .string text => some text
  | .number text => some text
  | _ => none

end Value

structure InboundFrame where
  event : String
  data : Value
  channel : Option String

inductive EncryptionError where
  | InvalidMasterKey
  | WrongMasterKeyLength
  | EncryptFailed
deriving DecidableEq, Repr

abbrev SecretKey := { bytes : List UInt8 // bytes.length = 32 }

structure Primitives where
  fromStr : String → Option Value
  toText : Value → String
  parseInbound : String → Option InboundFrame
  /-- The printed HMAC-SHA256 of a message under a secret. -/
  hmacHex : String → String → String
  decodeBase64 : String → Option (List UInt8)
  sha256 : List UInt8 → SecretKey
  /-- `encrypt_payload`, given the nonce it draws. -/
  encryptPayload : Nat → String → SecretKey → Except EncryptionError String

def EncryptionError.display : EncryptionError → String
  | InvalidMasterKey => "master key is not valid base64"
  | WrongMasterKeyLength => "master key must be 32 bytes"
  | EncryptFailed => "encryption failed"

section

variable (prims : Primitives)

def looksEncrypted (data : String) : Bool :=
  match prims.fromStr data with
  | some v => (v.get "nonce").isSome && (v.get "ciphertext").isSome
  | none => false

def decodeMasterKey (b64 : String) : Except EncryptionError SecretKey :=
  match prims.decodeBase64 b64 with
  | none => .error .InvalidMasterKey
  | some bytes => if h : bytes.length = 32 then .ok ⟨bytes, h⟩ else .error .WrongMasterKeyLength

def deriveSharedSecret (channel : String) (master : SecretKey) : SecretKey :=
  prims.sha256 (channel.toUTF8.toList ++ master.1)

end

def exampleSealed : String := "\x7b\"nonce\":\"n\",\"ciphertext\":\"c\"\x7d"

/-- The frames of closed examples: subscriptions of the sockets `1.1` and `2.2` to an
encrypted channel, and a client event for it. -/
def exampleInbound (text : String) : Option InboundFrame :=
  if text = "join" then
    some ⟨"pusher:subscribe", .object [("channel", .string "private-encrypted-room"),
      ("auth", .string "key:secret/1.1:private-encrypted-room")], none⟩
  else if text = "join too" then
    some ⟨"pusher:subscribe", .object [("channel", .string "private-encrypted-room"),
      ("auth", .string "key:secret/2.2:private-encrypted-room")], none⟩
  else if text = "whisper" then
    some ⟨"client-typing", .string "hello", some "private-encrypted-room"⟩
  else none

def examplePrims : Primitives where
  fromStr text :=
    if text = exampleSealed then
      some (.object [("nonce", .string "n"), ("ciphertext", .string "c")])
    else none
  toText _ := "null"
  parseInbound := exampleInbound
  hmacHex secret message := secret ++ "/" ++ message
  decodeBase64 _ := none
  sha256 _ := ⟨List.replicate 32 0, List.length_replicate⟩
  encryptPayload _ _ _ := .ok exampleSealed

end Zatat
