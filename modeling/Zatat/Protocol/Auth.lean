import Zatat.Core.ChannelName
import Zatat.Core.SocketId

/-! # Auth strings of subscriptions and sign-ins

An auth string is the application's key and a signature of a canonical text. The
keyed hash is a parameter: `hmacHex secret message` is the printed signature.
-/

namespace Zatat

open Delimited List

inductive ChannelAuthError where
  | BadFormat
  | KeyMismatch
  | Mismatch
deriving DecidableEq, Repr

section

variable (hmacHex : String → String → String)

def canonicalChannelString (socketId channel : String) (channelData : Option String) : String :=
  match channelData with
  | some data => socketId ++ ":" ++ channel ++ ":" ++ data
  | none => socketId ++ ":" ++ channel

def canonicalUserString (socketId userData : String) : String :=
  socketId ++ "::user::" ++ userData

def signCanonical (appKey canonical secret : String) : String :=
  appKey ++ ":" ++ hmacHex secret canonical

def signChannelAuth (appKey socketId channel : String) (channelData : Option String)
    (secret : String) : String :=
  signCanonical hmacHex appKey (canonicalChannelString socketId channel channelData) secret

def signUserAuth (appKey socketId userData secret : String) : String :=
  signCanonical hmacHex appKey (canonicalUserString socketId userData) secret

def verifyCanonical (expectedAppKey canonical auth secret : String) :
    Except ChannelAuthError Unit :=
  match splitOnce ':' auth.toList with
  | none => .error .BadFormat
  | some (givenKey, givenSig) =>
    let keyOk := decide (givenKey = expectedAppKey.toList)
    let sigOk := decide (givenSig = (hmacHex secret canonical).toList)
    if keyOk then if sigOk then .ok () else .error .Mismatch
    else .error .KeyMismatch

def verifyChannelAuth (expectedAppKey socketId channel : String) (channelData : Option String)
    (auth secret : String) : Except ChannelAuthError Unit :=
  verifyCanonical hmacHex expectedAppKey (canonicalChannelString socketId channel channelData)
    auth secret

def verifyUserAuth (expectedAppKey socketId userData auth secret : String) :
    Except ChannelAuthError Unit :=
  verifyCanonical hmacHex expectedAppKey (canonicalUserString socketId userData) auth secret

end

variable {hmacHex : String → String → String}
  {channel socketId socketId' key canonical auth secret : String} {channelData : Option String}

/-! ## Canonical texts are unambiguous -/

theorem toList_canonicalChannelString (socketId channel : String) (channelData : Option String) :
    (canonicalChannelString socketId channel channelData).toList =
      socketId.toList ++ ':' :: (channel.toList ++
        match channelData with
        | some data => ':' :: data.toList
        | none => []) := by
  cases channelData with
  | none =>
    rw [canonicalChannelString, String.toList_append, String.toList_append, append_assoc,
      append_nil]
    rfl
  | some data =>
    simp only [canonicalChannelString, String.toList_append, append_assoc]
    rfl

theorem toList_canonicalUserString (socketId userData : String) :
    (canonicalUserString socketId userData).toList =
      socketId.toList ++ ':' :: (":user::".toList ++ userData.toList) := by
  rw [canonicalUserString, String.toList_append, String.toList_append, append_assoc]
  rfl

theorem colon_not_mem_of_isValidChannelName (h : isValidChannelName channel = true) :
    ':' ∉ channel.toList := fun hMem =>
  absurd (isChannelNameChar_of_mem h hMem) (by decide)

theorem canonicalChannelString_inj {channel' : String} {channelData' : Option String}
    (hSocket : isSocketId socketId = true) (hSocket' : isSocketId socketId' = true)
    (hChannel : isValidChannelName channel = true) (hChannel' : isValidChannelName channel' = true)
    (h : canonicalChannelString socketId channel channelData =
      canonicalChannelString socketId' channel' channelData') :
    (socketId, channel, channelData) = (socketId', channel', channelData') := by
  have hText := congrArg String.toList h
  rw [toList_canonicalChannelString, toList_canonicalChannelString,
    join_inj (colon_not_mem_of_isSocketId hSocket) (colon_not_mem_of_isSocketId hSocket')] at hText
  obtain ⟨hIds, hRest⟩ := hText
  have hColon := colon_not_mem_of_isValidChannelName hChannel
  have hColon' := colon_not_mem_of_isValidChannelName hChannel'
  have hParts : channel = channel' ∧ channelData = channelData' := by
    cases channelData with
    | none =>
      cases channelData' with
      | none =>
        rw [append_nil, append_nil] at hRest
        exact ⟨String.toList_inj.mp hRest, rfl⟩
      | some data' =>
        rw [append_nil] at hRest
        rw [hRest] at hColon
        exact absurd (mem_append_right _ mem_cons_self) hColon
    | some data =>
      cases channelData' with
      | none =>
        rw [append_nil] at hRest
        rw [← hRest] at hColon'
        exact absurd (mem_append_right _ mem_cons_self) hColon'
      | some data' =>
        obtain ⟨hNames, hData⟩ := (join_inj hColon hColon').mp hRest
        exact ⟨String.toList_inj.mp hNames, congrArg some (String.toList_inj.mp hData)⟩
  rw [String.toList_inj.mp hIds, hParts.1, hParts.2]

theorem canonicalUserString_inj {userData userData' : String} (hSocket : isSocketId socketId = true)
    (hSocket' : isSocketId socketId' = true)
    (h : canonicalUserString socketId userData = canonicalUserString socketId' userData') :
    (socketId, userData) = (socketId', userData') := by
  have hText := congrArg String.toList h
  rw [toList_canonicalUserString, toList_canonicalUserString,
    join_inj (colon_not_mem_of_isSocketId hSocket) (colon_not_mem_of_isSocketId hSocket')] at hText
  obtain ⟨hIds, hRest⟩ := hText
  rw [String.toList_inj.mp hIds, String.toList_inj.mp (append_cancel_left hRest)]

theorem canonicalChannelString_ne_canonicalUserString {userData : String}
    (hSocket : isSocketId socketId = true) (hSocket' : isSocketId socketId' = true)
    (hChannel : isValidChannelName channel = true) :
    canonicalChannelString socketId channel channelData ≠
      canonicalUserString socketId' userData := by
  intro h
  have hText := congrArg String.toList h
  rw [toList_canonicalChannelString, toList_canonicalUserString,
    join_inj (colon_not_mem_of_isSocketId hSocket) (colon_not_mem_of_isSocketId hSocket')] at hText
  have hColon := colon_not_mem_of_isValidChannelName hChannel
  cases hName : channel.toList with
  | nil => exact ne_empty_of_isValidChannelName hChannel hName
  | cons c rest =>
    rw [hName] at hText hColon
    have hHead : c = ':' := (List.cons.inj hText.2).1
    exact hColon (hHead ▸ mem_cons_self)

/-! ## Verification -/

theorem verifyCanonical_eq_ok : verifyCanonical hmacHex key canonical auth secret = .ok () ↔
      splitOnce ':' auth.toList = some (key.toList, (hmacHex secret canonical).toList) := by
  rw [verifyCanonical]
  cases splitOnce ':' auth.toList with
  | none => simp
  | some parts =>
    obtain ⟨givenKey, givenSig⟩ := parts
    by_cases hKey : givenKey = key.toList
    · by_cases hSig : givenSig = (hmacHex secret canonical).toList
      · simp [hKey, hSig]
      · simp [hKey, hSig]
    · simp [hKey]

theorem verifyCanonical_iff (hKey : ':' ∉ key.toList) (canonical auth secret : String) :
    verifyCanonical hmacHex key canonical auth secret = .ok () ↔
      auth = signCanonical hmacHex key canonical secret := by
  rw [verifyCanonical_eq_ok, splitOnce_eq_some, and_iff_left hKey, ← String.toList_inj,
    signCanonical, String.toList_append, String.toList_append, append_assoc]
  rfl

theorem verifyCanonical_signCanonical (hKey : ':' ∉ key.toList) (canonical secret : String) :
    verifyCanonical hmacHex key canonical (signCanonical hmacHex key canonical secret) secret =
      .ok () :=
  (verifyCanonical_iff hKey ..).mpr rfl

theorem colon_not_mem_of_verifyCanonical
    (h : verifyCanonical hmacHex key canonical auth secret = .ok ()) : ':' ∉ key.toList :=
  (splitOnce_eq_some.mp (verifyCanonical_eq_ok.mp h)).2

theorem verifyCanonical_eq_mismatch {canonical' : String}
    (h : verifyCanonical hmacHex key canonical auth secret = .ok ())
    (hSig : hmacHex secret canonical ≠ hmacHex secret canonical') :
    verifyCanonical hmacHex key canonical' auth secret = .error .Mismatch := by
  have hOther : (hmacHex secret canonical).toList ≠ (hmacHex secret canonical').toList :=
    fun hEq => hSig (String.toList_inj.mp hEq)
  rw [verifyCanonical, verifyCanonical_eq_ok.mp h]
  dsimp only
  rw [decide_eq_true rfl, decide_eq_false hOther]
  rfl

/-- With signatures that tell all texts apart, an auth string is good for the one
subscription or the one sign-in it was made for. -/
theorem auth_does_not_transfer (hmacHex : String → String → String) (key secret auth : String)
    (hInjective : Function.Injective (hmacHex secret)) :
    (∀ socketId channel channelData socketId' channel' channelData',
      isSocketId socketId = true → isSocketId socketId' = true →
      isValidChannelName channel = true → isValidChannelName channel' = true →
      verifyChannelAuth hmacHex key socketId channel channelData auth secret = .ok () →
      (socketId', channel', channelData') ≠ (socketId, channel, channelData) →
      verifyChannelAuth hmacHex key socketId' channel' channelData' auth secret =
        .error .Mismatch) ∧ (∀ socketId channel channelData socketId' userData,
      isSocketId socketId = true → isSocketId socketId' = true → isValidChannelName channel = true →
      verifyChannelAuth hmacHex key socketId channel channelData auth secret = .ok () →
      verifyUserAuth hmacHex key socketId' userData auth secret = .error .Mismatch) ∧
    (∀ socketId userData socketId' channel channelData,
      isSocketId socketId = true → isSocketId socketId' = true → isValidChannelName channel = true →
      verifyUserAuth hmacHex key socketId userData auth secret = .ok () →
      verifyChannelAuth hmacHex key socketId' channel channelData auth secret =
        .error .Mismatch) ∧
    (∀ socketId userData socketId' userData',
      isSocketId socketId = true → isSocketId socketId' = true →
      verifyUserAuth hmacHex key socketId userData auth secret = .ok () →
      (socketId', userData') ≠ (socketId, userData) →
      verifyUserAuth hmacHex key socketId' userData' auth secret = .error .Mismatch) := by
  refine ⟨?_, ?_, ?_, ?_⟩
  · intro socketId channel channelData socketId' channel' channelData' hSocket hSocket' hChannel
      hChannel' hAccepted hOther
    refine verifyCanonical_eq_mismatch hAccepted fun hSig => hOther ?_
    exact (canonicalChannelString_inj hSocket hSocket' hChannel hChannel' (hInjective hSig)).symm
  · intro socketId channel channelData socketId' userData hSocket hSocket' hChannel hAccepted
    refine verifyCanonical_eq_mismatch hAccepted fun hSig => ?_
    exact canonicalChannelString_ne_canonicalUserString hSocket hSocket' hChannel (hInjective hSig)
  · intro socketId userData socketId' channel channelData hSocket hSocket' hChannel hAccepted
    refine verifyCanonical_eq_mismatch hAccepted fun hSig => ?_
    exact canonicalChannelString_ne_canonicalUserString hSocket' hSocket hChannel
      (hInjective hSig).symm
  · intro socketId userData socketId' userData' hSocket hSocket' hAccepted hOther
    refine verifyCanonical_eq_mismatch hAccepted fun hSig => hOther ?_
    exact (canonicalUserString_inj hSocket hSocket' (hInjective hSig)).symm

/-- A signature that is the text itself. -/
def plainHmac (_secret message : String) : String := message

def joinAuth : String := signChannelAuth plainHmac "key" "1.2" "private-room" none "secret"

def signinAuth : String := signUserAuth plainHmac "key" "1.2" "ana" "secret"

/-- What was made for a subscription without channel data is refused for one with data and
for a sign-in, and what was made for a sign-in is refused for another user, for another
socket and for a subscription. -/
theorem auth_refused_elsewhere :
    (verifyChannelAuth plainHmac "key" "1.2" "private-room" none joinAuth "secret" = .ok () ∧
      verifyChannelAuth plainHmac "key" "1.2" "private-room" (some "x") joinAuth "secret" =
        .error .Mismatch ∧
      verifyUserAuth plainHmac "key" "1.2" "ana" joinAuth "secret" = .error .Mismatch) ∧
    verifyUserAuth plainHmac "key" "1.2" "ana" signinAuth "secret" = .ok () ∧
      verifyUserAuth plainHmac "key" "1.2" "bo" signinAuth "secret" = .error .Mismatch ∧
      verifyUserAuth plainHmac "key" "1.3" "ana" signinAuth "secret" = .error .Mismatch ∧
      verifyChannelAuth plainHmac "key" "1.2" "private-room" none signinAuth "secret" =
        .error .Mismatch := by
  obtain ⟨hChannels, hChannelUser, -, -⟩ :=
    auth_does_not_transfer plainHmac "key" "secret" joinAuth fun _ _ h => h
  obtain ⟨-, -, hUserChannel, hUsers⟩ :=
    auth_does_not_transfer plainHmac "key" "secret" signinAuth fun _ _ h => h
  have hJoin : verifyChannelAuth plainHmac "key" "1.2" "private-room" none joinAuth "secret" =
      .ok () := verifyCanonical_signCanonical (by decide) _ _
  have hSignin : verifyUserAuth plainHmac "key" "1.2" "ana" signinAuth "secret" = .ok () :=
    verifyCanonical_signCanonical (by decide) _ _
  refine ⟨⟨hJoin, ?_, ?_⟩, hSignin, ?_, ?_, ?_⟩
  · exact hChannels _ _ _ _ _ _ (by decide) (by decide) (by decide) (by decide) hJoin (by decide)
  · exact hChannelUser _ _ _ _ _ (by decide) (by decide) (by decide) hJoin
  · exact hUsers _ _ _ _ (by decide) (by decide) hSignin (by decide)
  · exact hUsers _ _ _ _ (by decide) (by decide) hSignin (by decide)
  · exact hUserChannel _ _ _ _ _ (by decide) (by decide) (by decide) hSignin

/-! ## Exactly the signed string -/

/-- Both verifications accept what the matching function signs, and nothing else. -/
structure AcceptsSigned (hmacHex : String → String → String) (key secret : String) : Prop where
  channel : ∀ socketId channel channelData auth,
    verifyChannelAuth hmacHex key socketId channel channelData auth secret = .ok () ↔
      auth = signChannelAuth hmacHex key socketId channel channelData secret
  user : ∀ socketId userData auth,
    verifyUserAuth hmacHex key socketId userData auth secret = .ok () ↔
      auth = signUserAuth hmacHex key socketId userData secret

/-- The loader takes any key, but one with a colon in it is cut in the middle. -/
theorem acceptsSigned_iff (hmacHex : String → String → String) (key secret : String) :
    AcceptsSigned hmacHex key secret ↔ ':' ∉ key.toList := by
  constructor
  · intro h
    exact colon_not_mem_of_verifyCanonical ((h.user "" "" _).mpr rfl)
  · intro hKey
    exact ⟨fun _ _ _ _ => verifyCanonical_iff hKey .., fun _ _ _ => verifyCanonical_iff hKey ..⟩

theorem colon_key_refused :
    verifyChannelAuth plainHmac "a:b" "1.2" "private-room" none
      (signChannelAuth plainHmac "a:b" "1.2" "private-room" none "secret")
      "secret" = .error .KeyMismatch := by decide

end Zatat
