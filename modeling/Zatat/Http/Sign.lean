import Zatat.Core.Application
import Zatat.Core.SocketId
import Zatat.Lib.Utf8
import Zatat.Protocol.HttpSign

/-! # Verification of signed requests

`parse_query`, and `verify_request` at a time `now` of the clock. What a query says is
decoded before it is checked and signed.
-/

namespace Zatat.Http

open Delimited

structure Uri where
  path : String
  query : Option String

/-! ## Queries -/

def toDigit16 (b : UInt8) : Option UInt8 :=
  if 48 ≤ b ∧ b ≤ 57 then some (b - 48)
  else if 65 ≤ b ∧ b ≤ 70 then some (b - 55)
  else if 97 ≤ b ∧ b ≤ 102 then some (b - 87)
  else none

def escaped (b : UInt8) (rest : List UInt8) : Option UInt8 :=
  match rest with
  | h :: l :: _ =>
    if b = 37 then (toDigit16 h).bind fun h => (toDigit16 l).map fun l => h * 16 + l else none
  | _ => none

/-- The loop of `pct_decode`; the two digits of an escape are passed over. -/
def decodeBytes : Nat → List UInt8 → List UInt8
  | _, [] => []
  | passed + 1, _ :: rest => decodeBytes passed rest
  | 0, b :: rest =>
    match escaped b rest with
    | some byte => byte :: decodeBytes 2 rest
    | none => b :: decodeBytes 0 rest

def pctDecode (text : List Char) : String :=
  let replaced := String.ofList (text.map fun c => if c = '+' then ' ' else c)
  (Utf8.decode (decodeBytes 0 (Utf8.encode replaced))).getD ""

def parsePair (pair : List Char) : String × String :=
  let parts := (splitOnce '=' pair).getD (pair, [])
  (pctDecode parts.1, pctDecode parts.2)

def parseQuery (uri : Uri) : QueryParams :=
  match uri.query with
  | none => []
  | some q => ((q.toList.splitOn '&').filter fun pair => !pair.isEmpty).map parsePair

example : parseQuery ⟨"/x", some "a=hello+world&&b=c%2Fd&e%E2%9C%93&f=%4"⟩ =
    [("a", "hello world"), ("b", "c/d"), ("e✓", ""), ("f", "%4")] := by decide

def findParam (name : String) (pairs : QueryParams) : Option String :=
  (pairs.find? fun p => p.1 == name).map Prod.snd

def param (name : String) (pairs : QueryParams) : Option String :=
  (pairs.find? fun p => eqIgnoreAsciiCase p.1 name).map Prod.snd

def parseI64 (text : String) : Option Int :=
  let number (digits : List Char) : Option Int :=
    if isDigits digits then
      some (digits.foldl (fun n c => 10 * n + (c.toNat - 48 : Nat)) (0 : Int))
    else none
  (match text.toList with
  | '-' :: digits => (number digits).map fun n => -n
  | '+' :: digits => number digits
  | digits => number digits).filter fun n =>
    -9223372036854775808 ≤ n ∧ n ≤ 9223372036854775807

/-! ## Requests -/

structure VerifyError where
  code : Nat
  message : String
deriving DecidableEq, Repr

def authTimestampGraceSeconds : Nat := 600

def unauthorized (message : String) : VerifyError := ⟨401, message⟩

section

variable (hmacHex : String → String → String) (bodyMd5Hex : List UInt8 → String)

/-- The checks of `verify_request` before the signature, which they find. -/
def checkParams (app : Application) (now : Nat) (body : List UInt8) (pairs : QueryParams) :
    Except VerifyError String :=
  if ¬ (pairs.map fun p => toAsciiLowercase p.1).Nodup then
    .error (unauthorized "Duplicate query parameter")
  else
    match findParam "auth_signature" pairs with
    | none => .error (unauthorized "Auth signature invalid")
    | some givenSig =>
      match (findParam "auth_timestamp" pairs).bind parseI64 with
      | none => .error (unauthorized "Timestamp required")
      | some ts =>
        if ((now : Int) - ts).natAbs > authTimestampGraceSeconds then
          .error (unauthorized ("Timestamp expired: given timestamp " ++ toString ts ++
            " is more than " ++ toString authTimestampGraceSeconds ++ " seconds old"))
        else if (param "auth_key" pairs).any (· != app.key) then
          .error (unauthorized "Invalid auth_key for this application")
        else if (param "auth_version" pairs).any (· != "1.0") then
          .error (unauthorized "Unsupported auth_version; expected 1.0")
        else if (param "body_md5" pairs).any
            (fun md5 => !eqIgnoreAsciiCase md5 (bodyMd5Hex body)) then
          .error (unauthorized "body_md5 does not match the request body")
        else .ok givenSig

def verifyRequest (app : Application) (now : Nat) (method : String) (uri : Uri)
    (serverPath : String) (body : List UInt8) : Except VerifyError Unit :=
  let pairs := parseQuery uri
  match checkParams bodyMd5Hex app now body pairs with
  | .error err => .error err
  | .ok givenSig =>
    let path := stripPathPrefix uri.path serverPath
    if verifyHttp hmacHex bodyMd5Hex method path body pairs givenSig app.secret then .ok ()
    else .error (unauthorized "Authentication signature invalid.")

end

variable {hmacHex : String → String → String} {bodyMd5Hex : List UInt8 → String} {app : Application}
  {now : Nat} {body : List UInt8}

structure Checked (bodyMd5Hex : List UInt8 → String) (app : Application) (now : Nat)
    (body : List UInt8) (pairs : QueryParams) (givenSig : String) : Prop where
  distinct : (pairs.map fun p => toAsciiLowercase p.1).Nodup
  signature : findParam "auth_signature" pairs = some givenSig
  timestamp : ∃ ts, (findParam "auth_timestamp" pairs).bind parseI64 = some ts ∧
    ((now : Int) - ts).natAbs ≤ authTimestampGraceSeconds
  key : (param "auth_key" pairs).any (· != app.key) = false
  version : (param "auth_version" pairs).any (· != "1.0") = false
  bodyMd5 : (param "body_md5" pairs).any
    (fun md5 => !eqIgnoreAsciiCase md5 (bodyMd5Hex body)) = false

theorem checkParams_eq_ok {pairs : QueryParams} {givenSig : String} :
    checkParams bodyMd5Hex app now body pairs = .ok givenSig ↔
      Checked bodyMd5Hex app now body pairs givenSig := by
  constructor
  · intro h
    unfold checkParams at h
    split at h
    · cases h
    rename_i hDistinct
    split at h
    · cases h
    rename_i sig hSig
    split at h
    · cases h
    rename_i ts hTime
    split at h
    · cases h
    rename_i hFresh
    split at h
    · cases h
    rename_i hKey
    split at h
    · cases h
    rename_i hVersion
    split at h
    · cases h
    rename_i hMd5
    cases h
    exact ⟨not_not.mp hDistinct, hSig, ⟨ts, hTime, not_lt.mp hFresh⟩, Bool.eq_false_of_not_eq_true
      hKey, Bool.eq_false_of_not_eq_true hVersion, Bool.eq_false_of_not_eq_true hMd5⟩
  · intro h
    obtain ⟨ts, hTime, hFresh⟩ := h.timestamp
    rw [checkParams, if_neg (not_not.mpr h.distinct), h.signature]
    dsimp only
    rw [hTime]
    dsimp only
    rw [if_neg (not_lt.mpr hFresh), h.key, h.version, h.bodyMd5]
    rfl

theorem verifyRequest_eq_ok {method : String} {uri : Uri} {serverPath : String} :
    verifyRequest hmacHex bodyMd5Hex app now method uri serverPath body = .ok () ↔
      ∃ givenSig, Checked bodyMd5Hex app now body (parseQuery uri) givenSig ∧
        signHttp hmacHex bodyMd5Hex method (stripPathPrefix uri.path serverPath) body
          (parseQuery uri) app.secret = givenSig := by
  rw [verifyRequest]
  cases hCheck : checkParams bodyMd5Hex app now body (parseQuery uri) with
  | error err =>
    refine ⟨nofun, ?_⟩
    rintro ⟨givenSig, hChecked, -⟩
    rw [← checkParams_eq_ok, hCheck] at hChecked
    cases hChecked
  | ok givenSig =>
    have hChecked := checkParams_eq_ok.mp hCheck
    dsimp only
    constructor
    · intro h
      split at h
      · rename_i hVerify
        exact ⟨givenSig, hChecked, beq_iff_eq.mp hVerify⟩
      · cases h
    · rintro ⟨sig, hOther, hSign⟩
      have hSame : sig = givenSig :=
        Option.some.inj (hOther.signature.symm.trans hChecked.signature)
      exact if_pos (beq_iff_eq.mpr (hSign.trans hSame))

end Zatat.Http
