import Zatat.Http.Query

/-! # What is signed and what the handlers read

Names are signed in lower case and the pairs are joined without escapes, so one signed
text can stand for several lists of parameters. The handlers look for `info` and
`filter_by_prefix` by their exact names. They read the same for every accepted request
with one signature only if no such list names one of the two.
-/

namespace Zatat.Http

open Delimited List

/-! ## Every list of parameters is that of some query -/

def hexDigit (n : Nat) : Char := Char.ofNat (if n < 10 then 48 + n else 55 + n)

def encodeByte (b : UInt8) : List Char := ['%', hexDigit (b.toNat / 16), hexDigit (b.toNat % 16)]

def pctEncode (text : String) : List Char := (Utf8.encode text).flatMap encodeByte

def encodePair (p : String × String) : List Char := pctEncode p.1 ++ '=' :: pctEncode p.2

def encodeQuery (pairs : QueryParams) : String :=
  String.ofList (List.intercalate ['&'] (pairs.map encodePair))

theorem hexDigit_spec : ∀ n < 16, hexDigit n = "0123456789ABCDEF".toList.getD n ' ' := by decide

theorem encodes_pctEncode (inName : Bool) (text : String) :
    EncodesBytes inName (Utf8.encode text) (pctEncode text) := by
  rw [pctEncode]
  induction Utf8.encode text with
  | nil => exact .nil
  | cons b bytes ih =>
    have hByte : b.toNat < 256 := b.toNat_lt
    have hHigh : b.toNat / 16 < 16 := by omega
    have hLow : b.toNat % 16 < 16 := by omega
    have hEscape := EncodesBytes.escape ⟨hHigh, .inr (hexDigit_spec _ hHigh)⟩
      ⟨hLow, .inr (hexDigit_spec _ hLow)⟩ ih
    rw [Nat.div_add_mod', UInt8.ofNat_toNat] at hEscape
    exact hEscape

theorem parseQuery_encodeQuery (path : String) (pairs : QueryParams) :
    parseQuery ⟨path, some (encodeQuery pairs)⟩ = pairs := by
  refine parseQuery_of_encodes path ⟨pairs.map encodePair, String.toList_ofList, ?_⟩
  rw [filter_eq_self.mpr]
  · rw [forall₂_map_right_iff, forall₂_same]
    intro p _
    exact ⟨pctEncode p.1, pctEncode p.2, rfl, encodes_pctEncode .., encodes_pctEncode ..⟩
  · intro part hPart
    obtain ⟨p, -, rfl⟩ := mem_map.mp hPart
    simp [encodePair]

/-! ## The property and the condition -/

def readNames : List String := ["info", "filter_by_prefix"]

section

variable (hmacHex : String → String → String) (bodyMd5Hex : List UInt8 → String)

/-- Every accepted request with the same signature reads as this one. -/
def ReadsFixed (app : Application) (method : String) (uri : Uri) (serverPath : String)
    (body : List UInt8) : Prop :=
  ∀ now uri', uri'.path = uri.path →
    verifyRequest hmacHex bodyMd5Hex app now method uri' serverPath body = .ok () →
    findParam "auth_signature" (parseQuery uri') = findParam "auth_signature" (parseQuery uri) →
    ∀ name ∈ readNames, findParam name (parseQuery uri') = findParam name (parseQuery uri)

/-- No parameters that pass the checks with the same signature, and are signed as the same
text, name in any letter case one that the handlers read. -/
def Unambiguous (app : Application) (body : List UInt8) (pairs : QueryParams) : Prop :=
  ∀ now sig pairs', findParam "auth_signature" pairs = some sig →
    checkParams bodyMd5Hex app now body pairs' = .ok sig →
    canonicalQuery bodyMd5Hex body pairs' = canonicalQuery bodyMd5Hex body pairs →
    ∀ p ∈ pairs', toAsciiLowercase p.1 ∉ readNames

end

/-! ## Other spellings -/

def respelled (name spelling k : String) : String :=
  if toAsciiLowercase k = name then spelling else k

def respell (name spelling : String) (pairs : QueryParams) : QueryParams :=
  pairs.map fun p => (respelled name spelling p.1, p.2)

section

variable {name spelling : String} (hSpelling : toAsciiLowercase spelling = name)

theorem find_respell {q : String → Bool} (hSame : ∀ k, q (respelled name spelling k) = q k)
    (pairs : QueryParams) : ((respell name spelling pairs).find? fun p => q p.1).map Prod.snd =
      (pairs.find? fun p => q p.1).map Prod.snd := by
  have hTest : ((fun p : String × String => q p.1) ∘
      fun p : String × String => (respelled name spelling p.1, p.2)) = fun p => q p.1 :=
    funext fun p => hSame p.1
  rw [respell, List.find?_map, Option.map_map, hTest]
  rfl

include hSpelling

theorem lower_respelled (k : String) :
    toAsciiLowercase (respelled name spelling k) = toAsciiLowercase k := by
  rw [respelled]
  split
  · rename_i hName
    rw [hSpelling, hName]
  · rfl

theorem names_respell (pairs : QueryParams) :
    (respell name spelling pairs).map (fun p => toAsciiLowercase p.1) =
      pairs.map fun p => toAsciiLowercase p.1 := by
  rw [respell, map_map]
  exact map_congr_left fun p _ => lower_respelled hSpelling p.1

theorem param_respell (other : String) (pairs : QueryParams) :
    param other (respell name spelling pairs) = param other pairs := by
  refine find_respell (q := fun k => eqIgnoreAsciiCase k other) (fun k => ?_) pairs
  rw [eqIgnoreAsciiCase, lower_respelled hSpelling]
  rfl

theorem findParam_respell {other : String} (hOther : toAsciiLowercase other ≠ name)
    (pairs : QueryParams) :
    findParam other (respell name spelling pairs) = findParam other pairs := by
  refine find_respell (q := fun k => k == other) (fun k => ?_) pairs
  rw [Bool.eq_iff_iff, beq_iff_eq, beq_iff_eq, respelled]
  split
  · rename_i hName
    refine iff_of_false ?_ ?_
    · rintro rfl
      exact hOther hSpelling
    · rintro rfl
      exact hOther hName
  · rfl

theorem contains_respelled (hName : ∀ k ∈ excludedParams, toAsciiLowercase k ≠ name) (k : String) :
    excludedParams.contains (respelled name spelling k) = excludedParams.contains k := by
  have hOut (k : String) (hk : toAsciiLowercase k = name) : excludedParams.contains k = false := by
    rw [← Bool.not_eq_true, contains_iff_mem]
    exact fun hMem => hName k hMem hk
  rw [respelled]
  split
  · rename_i hHere
    rw [hOut spelling hSpelling, hOut k hHere]
  · rfl

theorem canonicalQuery_respell (hName : ∀ k ∈ excludedParams, toAsciiLowercase k ≠ name)
    (bodyMd5Hex : List UInt8 → String) (body : List UInt8) (pairs : QueryParams) :
    canonicalQuery bodyMd5Hex body (respell name spelling pairs) =
      canonicalQuery bodyMd5Hex body pairs := by
  have hTest : ((fun p : String × String => !excludedParams.contains p.1) ∘
      fun p : String × String => (respelled name spelling p.1, p.2)) =
        fun p => !excludedParams.contains p.1 :=
    funext fun p => congrArg not (contains_respelled hSpelling hName p.1)
  have hKept : keptParams (respell name spelling pairs) = keptParams pairs := by
    rw [keptParams, keptParams, respell, filter_map, hTest, map_map]
    exact map_congr_left fun p _ => Prod.ext (lower_respelled hSpelling p.1) rfl
  rw [canonicalQuery, canonicalQuery, signedParams_eq, signedParams_eq, hKept]

theorem Checked.respell {bodyMd5Hex : List UInt8 → String} {app : Application} {now : Nat}
    {body : List UInt8} {pairs : QueryParams} {sig : String}
    (h : Checked bodyMd5Hex app now body pairs sig) (hSig : name ≠ "auth_signature")
    (hTime : name ≠ "auth_timestamp") :
    Checked bodyMd5Hex app now body (respell name spelling pairs) sig := by
  refine ⟨?_, ?_, ?_, ?_, ?_, ?_⟩
  · rw [names_respell hSpelling]
    exact h.distinct
  · rw [findParam_respell hSpelling fun hEq => hSig (hEq.symm.trans (by decide))]
    exact h.signature
  · rw [findParam_respell hSpelling fun hEq => hTime (hEq.symm.trans (by decide))]
    exact h.timestamp
  · rw [param_respell hSpelling]
    exact h.key
  · rw [param_respell hSpelling]
    exact h.version
  · rw [param_respell hSpelling]
    exact h.bodyMd5

end

theorem findParam_respell_exact {name : String} {pairs : QueryParams} {p : String × String}
    (hMem : p ∈ pairs) (hName : toAsciiLowercase p.1 = name) :
    (findParam name (respell name name pairs)).isSome = true := by
  rw [findParam, Option.isSome_map, List.find?_isSome]
  refine ⟨(name, p.2), mem_map.mpr ⟨p, hMem, ?_⟩, beq_self_eq_true name⟩
  rw [respelled, if_pos hName]

theorem findParam_respell_other {name spelling : String} (hLower : toAsciiLowercase name = name)
    (hOther : spelling ≠ name) (pairs : QueryParams) :
    findParam name (respell name spelling pairs) = none := by
  rw [findParam, Option.map_eq_none_iff, List.find?_eq_none]
  intro p hp
  obtain ⟨p', -, rfl⟩ := mem_map.mp hp
  rw [beq_iff_eq, respelled]
  split
  · exact hOther
  · rename_i hName
    rintro rfl
    exact hName hLower

/-! ## The two agree -/

def toAsciiUppercase (text : String) : String := String.ofList (text.toList.map Char.toUpper)

theorem readNames_spec : ∀ name ∈ readNames, toAsciiLowercase name = name ∧
    toAsciiLowercase (toAsciiUppercase name) = name ∧ toAsciiUppercase name ≠ name ∧
    (∀ k ∈ excludedParams, toAsciiLowercase k ≠ name) ∧ name ≠ "auth_signature" ∧
    name ≠ "auth_timestamp" := by decide

theorem findParam_eq_none {pairs : QueryParams}
    (h : ∀ p ∈ pairs, toAsciiLowercase p.1 ∉ readNames) {name : String}
    (hName : name ∈ readNames) : findParam name pairs = none := by
  rw [findParam, Option.map_eq_none_iff, List.find?_eq_none]
  intro p hp hEq
  refine h p hp ?_
  rw [beq_iff_eq.mp hEq, (readNames_spec name hName).1]
  exact hName

section

variable {hmacHex : String → String → String} {bodyMd5Hex : List UInt8 → String}
  {app : Application} {now : Nat} {method serverPath : String} {uri : Uri} {body : List UInt8}

theorem verifyRequest_encodeQuery {pairs : QueryParams} {sig : String}
    (hChecked : Checked bodyMd5Hex app now body pairs sig)
    (hSign : signHttp hmacHex bodyMd5Hex method (stripPathPrefix uri.path serverPath) body
      (parseQuery uri) app.secret = sig) (hText : canonicalQuery bodyMd5Hex body pairs =
      canonicalQuery bodyMd5Hex body (parseQuery uri)) :
    verifyRequest hmacHex bodyMd5Hex app now method ⟨uri.path, some (encodeQuery pairs)⟩
      serverPath body = .ok () := by
  rw [verifyRequest_eq_ok, parseQuery_encodeQuery]
  refine ⟨sig, hChecked, ?_⟩
  rw [← hSign, signHttp, signHttp, canonicalHttpString_inj.mpr hText]

theorem unambiguous_of_readsFixed
    (hAccepted : verifyRequest hmacHex bodyMd5Hex app now method uri serverPath body = .ok ())
    (hFixed : ReadsFixed hmacHex bodyMd5Hex app method uri serverPath body) :
    Unambiguous bodyMd5Hex app body (parseQuery uri) := by
  intro now' sig pairs hGiven hCheck hText p hp hName
  obtain ⟨sig', hChecked', hSign⟩ := verifyRequest_eq_ok.mp hAccepted
  obtain rfl : sig' = sig := Option.some.inj (hChecked'.signature.symm.trans hGiven)
  obtain ⟨hLower, hUpper, hOther, hExcluded, hSig, hTime⟩ := readNames_spec _ hName
  -- The parameter can be sent in every spelling, and only one of them is read.
  have hRead (spelling : String) (hSpelling : toAsciiLowercase spelling = toAsciiLowercase p.1) :
      findParam (toAsciiLowercase p.1) (respell (toAsciiLowercase p.1) spelling pairs) =
        findParam (toAsciiLowercase p.1) (parseQuery uri) := by
    have hChecked := (checkParams_eq_ok.mp hCheck).respell hSpelling hSig hTime
    have hSent := verifyRequest_encodeQuery hChecked hSign
      ((canonicalQuery_respell hSpelling hExcluded bodyMd5Hex body pairs).trans hText)
    have hFind := hFixed now' ⟨uri.path, some (encodeQuery
      (respell (toAsciiLowercase p.1) spelling pairs))⟩ rfl hSent
    rw [parseQuery_encodeQuery] at hFind
    exact hFind (hChecked.signature.trans hGiven.symm) _ hName
  have hSome := findParam_respell_exact hp rfl
  rw [hRead _ hLower, ← hRead _ hUpper, findParam_respell_other hLower hOther] at hSome
  cases hSome

theorem readsFixed_of_unambiguous (hInjective : Function.Injective (hmacHex app.secret))
    (hAccepted : verifyRequest hmacHex bodyMd5Hex app now method uri serverPath body = .ok ())
    (hUnambiguous : Unambiguous bodyMd5Hex app body (parseQuery uri)) :
    ReadsFixed hmacHex bodyMd5Hex app method uri serverPath body := by
  intro now' uri' hPath hAccepted' hGiven name hName
  obtain ⟨sig, hChecked, hSign⟩ := verifyRequest_eq_ok.mp hAccepted
  obtain ⟨sig', hChecked', hSign'⟩ := verifyRequest_eq_ok.mp hAccepted'
  rw [hChecked.signature, hChecked'.signature] at hGiven
  obtain rfl := Option.some.inj hGiven
  have hText : canonicalQuery bodyMd5Hex body (parseQuery uri') =
      canonicalQuery bodyMd5Hex body (parseQuery uri) := by
    rw [hPath] at hSign'
    exact canonicalHttpString_inj.mp (hInjective (hSign'.trans hSign.symm))
  have hNone := findParam_eq_none (hUnambiguous now _ _ hChecked.signature
    (checkParams_eq_ok.mpr hChecked) rfl) hName
  have hNone' := findParam_eq_none (hUnambiguous now' _ _ hChecked.signature
    (checkParams_eq_ok.mpr hChecked') hText) hName
  rw [hNone, hNone']

end

theorem reads_fixed_iff_unambiguous (hmacHex : String → String → String)
    (bodyMd5Hex : List UInt8 → String) (app : Application)
    (hInjective : Function.Injective (hmacHex app.secret)) (now : Nat) (method : String)
    (uri : Uri) (serverPath : String) (body : List UInt8)
    (hAccepted : verifyRequest hmacHex bodyMd5Hex app now method uri serverPath body = .ok ()) :
    ReadsFixed hmacHex bodyMd5Hex app method uri serverPath body ↔
      Unambiguous bodyMd5Hex app body (parseQuery uri) :=
  ⟨unambiguous_of_readsFixed hAccepted, readsFixed_of_unambiguous hInjective hAccepted⟩

/-- Where neither `info=` nor `filter_by_prefix=` stands in the signed text, no reading of
the text names one of the two. -/
theorem unambiguous_of_absent {bodyMd5Hex : List UInt8 → String} {app : Application}
    {body : List UInt8} {pairs : QueryParams} (hAbsent : ∀ name ∈ readNames,
      ¬ name.toList ++ ['='] <:+: (canonicalQuery bodyMd5Hex body pairs).toList) :
    Unambiguous bodyMd5Hex app body pairs := by
  intro now sig pairs' _ _ hText p hp hName
  obtain ⟨-, -, -, hExcluded, -⟩ := readNames_spec _ hName
  have hSigned : (toAsciiLowercase p.1, p.2) ∈ signedParams bodyMd5Hex body pairs' :=
    mem_signedParams hp fun hMem => hExcluded p.1 hMem rfl
  have hInfix := infix_canonicalQuery hSigned
  rw [hText] at hInfix
  have hStart : (toAsciiLowercase p.1).toList ++ ['='] <+: paramText (toAsciiLowercase p.1, p.2) :=
    ⟨p.2.toList, by rw [paramText, append_assoc]; rfl⟩
  exact hAbsent _ hName (hStart.isInfix.trans hInfix)

/-! ## One signature, three readings -/

def exampleUri (query : String) : Uri := ⟨"/x", some query⟩

def verifyPlain (uri : Uri) : Except VerifyError Unit :=
  verifyRequest (fun _ message => message) (fun _ => "") exampleApp 100 "GET" uri "" []

def plainQuery : String := "auth_timestamp=9&auth_signature=GET%0A/x%0Aauth_timestamp=9"

theorem plainQuery_reads_fixed : verifyPlain (exampleUri plainQuery) = .ok () ∧
      ReadsFixed (fun _ message => message) (fun _ => "") exampleApp "GET"
        (exampleUri plainQuery) "" [] :=
  have hAccepted : verifyPlain (exampleUri plainQuery) = .ok () := by decide +kernel
  ⟨hAccepted, (reads_fixed_iff_unambiguous (fun _ message => message) (fun _ => "") exampleApp
    (fun _ _ h => h) 100 "GET" _ "" [] hAccepted).mpr (unambiguous_of_absent (by decide +kernel))⟩

def infoQuery (params : String) : String :=
  "auth_timestamp=9&" ++ params ++ "&auth_signature=GET%0A/x%0Aauth_timestamp=9%26b=1%26info=c"

theorem infoQuery_readings : ["b=1&info=c", "b=1&INFO=c", "b=1%26info=c"].map (fun params =>
        (verifyPlain (exampleUri (infoQuery params)),
          findParam "auth_signature" (parseQuery (exampleUri (infoQuery params))),
          findParam "info" (parseQuery (exampleUri (infoQuery params))))) =
      [some "c", none, none].map fun info =>
        (.ok (), some "GET\n/x\nauth_timestamp=9&b=1&info=c", info) := by
  decide +kernel

theorem infoQuery_not_reads_fixed : verifyPlain (exampleUri (infoQuery "b=1&info=c")) = .ok () ∧
      ¬ ReadsFixed (fun _ message => message) (fun _ => "") exampleApp "GET"
        (exampleUri (infoQuery "b=1&info=c")) "" [] := by
  have hReadings := infoQuery_readings
  simp only [List.map_cons, List.map_nil, List.cons.injEq, Prod.mk.injEq, and_true] at hReadings
  obtain ⟨⟨hAccepted, hSig, hInfo⟩, ⟨hAccepted', hSig', hInfo'⟩, -⟩ := hReadings
  refine ⟨hAccepted, fun hFixed => ?_⟩
  have hSame := hFixed 100 (exampleUri (infoQuery "b=1&INFO=c")) rfl hAccepted'
    (hSig'.trans hSig.symm) "info" (by decide)
  rw [hInfo, hInfo'] at hSame
  cases hSame

end Zatat.Http
