import Mathlib.Data.List.DropRight
import Mathlib.Data.List.Sort
import Mathlib.Data.String.Basic
import Zatat.Lib.Delimited
import Zatat.Lib.StableSort

/-! # Signatures of HTTP requests

A request is signed over its method, its path and its parameters: names in lower case,
in their order, joined as `name=value&…` without escapes. The keyed hash and the MD5 of
the body are parameters.
-/

namespace Zatat

open List

abbrev QueryParams := List (String × String)

def toAsciiLowercase (text : String) : String := String.ofList (text.toList.map Char.toLower)

def eqIgnoreAsciiCase (a b : String) : Bool := toAsciiLowercase a == toAsciiLowercase b

def stripPathPrefix (path mount : String) : String :=
  if mount.isEmpty then path
  else
    let trimmed := mount.toList.rdropWhile (· == '/')
    if trimmed.isEmpty then path
    else
      match trimmed.isPrefixOf? path.toList with
      | some rest =>
        if rest.isEmpty then "/"
        else if rest.head? == some '/' then String.ofList rest
        else path
      | none => path

def excludedParams : List String :=
  ["auth_signature", "body_md5", "appId", "appKey", "channelName"]

section

variable (hmacHex : String → String → String) (bodyMd5Hex : List UInt8 → String)

def signedParams (body : List UInt8) (params : QueryParams) : QueryParams :=
  let filtered := params.filter fun p => !excludedParams.contains p.1
  let filtered := if body.isEmpty then filtered else filtered ++ [("body_md5", bodyMd5Hex body)]
  (filtered.map fun p => (toAsciiLowercase p.1, p.2)).insertionSort fun a b => a.1 ≤ b.1

def paramText (p : String × String) : List Char := p.1.toList ++ '=' :: p.2.toList

def canonicalQuery (body : List UInt8) (params : QueryParams) : String :=
  String.ofList (List.intercalate ['&'] ((signedParams bodyMd5Hex body params).map paramText))

def canonicalHttpString (method path : String) (body : List UInt8) (params : QueryParams) :
    String :=
  method ++ "\n" ++ path ++ "\n" ++ canonicalQuery bodyMd5Hex body params

def signHttp (method path : String) (body : List UInt8) (params : QueryParams)
    (secret : String) : String :=
  hmacHex secret (canonicalHttpString bodyMd5Hex method path body params)

def verifyHttp (method path : String) (body : List UInt8) (params : QueryParams)
    (givenSignature secret : String) : Bool :=
  signHttp hmacHex bodyMd5Hex method path body params secret == givenSignature

end

variable {bodyMd5Hex : List UInt8 → String} {body : List UInt8} {params params' : QueryParams}
  {p : String × String}

theorem mem_signedParams (hMem : p ∈ params) (hSigned : p.1 ∉ excludedParams) :
    (toAsciiLowercase p.1, p.2) ∈ signedParams bodyMd5Hex body params := by
  have hKept : p ∈ params.filter fun p => !excludedParams.contains p.1 := by
    rw [mem_filter, Bool.not_eq_true', ← Bool.not_eq_true, contains_iff_mem]
    exact ⟨hMem, hSigned⟩
  rw [signedParams, mem_insertionSort]
  refine mem_map_of_mem (f := fun p : String × String => (toAsciiLowercase p.1, p.2)) ?_
  split
  · exact hKept
  · exact mem_append_left _ hKept

theorem infix_canonicalQuery (h : p ∈ signedParams bodyMd5Hex body params) :
    paramText p <:+: (canonicalQuery bodyMd5Hex body params).toList := by
  rw [canonicalQuery, String.toList_ofList]
  exact Delimited.infix_intercalate (mem_map_of_mem h) _

theorem canonicalHttpString_inj {method path : String} :
    canonicalHttpString bodyMd5Hex method path body params =
      canonicalHttpString bodyMd5Hex method path body params' ↔
      canonicalQuery bodyMd5Hex body params = canonicalQuery bodyMd5Hex body params' := by
  rw [canonicalHttpString, canonicalHttpString]
  exact String.append_right_inj _

example : canonicalHttpString (fun _ => "d41d") "GET" "/apps/1/channels" [1]
    [("info", "cache"), ("Auth_Key", "k"), ("appId", "1")] =
      "GET\n/apps/1/channels\nauth_key=k&body_md5=d41d&info=cache" := by decide

/-! ## What the signature depends on -/

def keptParams (params : QueryParams) : QueryParams :=
  (params.filter fun p => !excludedParams.contains p.1).map fun p => (toAsciiLowercase p.1, p.2)

theorem keptParams_append (params params' : QueryParams) :
    keptParams (params ++ params') = keptParams params ++ keptParams params' := by
  simp [keptParams]

theorem keptParams_cons (p : String × String) (params : QueryParams) :
    keptParams (p :: params) = if p.1 ∈ excludedParams then keptParams params
      else (toAsciiLowercase p.1, p.2) :: keptParams params := by
  by_cases hOut : p.1 ∈ excludedParams <;> simp [keptParams, hOut]

theorem signedParams_eq (body : List UInt8) (params : QueryParams) :
    signedParams bodyMd5Hex body params = (keptParams params ++ if body.isEmpty then []
        else [(toAsciiLowercase "body_md5", bodyMd5Hex body)]).insertionSort
          fun a b => a.1 ≤ b.1 := by
  rw [signedParams]
  split <;> simp [keptParams]

theorem canonicalQuery_of_perm (body : List UInt8)
    (hPerm : (keptParams params).Perm (keptParams params'))
    (hDistinct : ((keptParams params).map Prod.fst).Nodup) :
    canonicalQuery bodyMd5Hex body params = canonicalQuery bodyMd5Hex body params' := by
  rw [canonicalQuery, canonicalQuery, signedParams_eq, signedParams_eq,
    StableSort.insertionSort_append_of_perm Prod.fst hPerm hDistinct]

theorem keptParams_nodup (h : (params.map fun p => toAsciiLowercase p.1).Nodup) :
    ((keptParams params).map Prod.fst).Nodup := by
  rw [keptParams, map_map]
  exact h.sublist (filter_sublist.map _)

/-- The lists differ by their order, by parameters that are not signed and by the letter
case of names other than those. -/
inductive SameSigned : QueryParams → QueryParams → Prop
  | perm {params params' : QueryParams} : params.Perm params' → SameSigned params params'
  | insert (before after : QueryParams) {p : String × String} : p.1 ∈ excludedParams →
      SameSigned (before ++ after) (before ++ p :: after)
  | respell (before after : QueryParams) {name name' : String} (value : String) :
      eqIgnoreAsciiCase name name' = true →
      (∀ k ∈ excludedParams, eqIgnoreAsciiCase name k = false) →
      SameSigned (before ++ (name, value) :: after) (before ++ (name', value) :: after)
  | symm {params params' : QueryParams} : SameSigned params params' → SameSigned params' params
  | trans {params params' params'' : QueryParams} : SameSigned params params' →
      SameSigned params' params'' → SameSigned params params''

theorem SameSigned.kept_perm (h : SameSigned params params') :
    (keptParams params).Perm (keptParams params') := by
  induction h with
  | perm h => exact (h.filter _).map _
  | insert before after hOut => simp [keptParams_append, keptParams_cons, hOut]
  | @respell before after name name' value hSame hOther =>
    have hSame : toAsciiLowercase name = toAsciiLowercase name' := beq_iff_eq.mp hSame
    have hKept {k : String} (hk : toAsciiLowercase name = toAsciiLowercase k) :
        k ∉ excludedParams := fun hMem => by
      have hDiffers := hOther k hMem
      rw [eqIgnoreAsciiCase, hk, beq_self_eq_true] at hDiffers
      cases hDiffers
    simp [keptParams_append, keptParams_cons, hKept rfl, hKept hSame, hSame]
  | symm _ ih => exact ih.symm
  | trans _ _ ih ih' => exact ih.trans ih'

/-- The signature over one list is the signature over every such other, and verifies it. -/
theorem signature_depends_on_signed (hmacHex : String → String → String)
    (bodyMd5Hex : List UInt8 → String) (method path : String) (body : List UInt8)
    (secret : String) (params params' : QueryParams)
    (hDistinct : (params.map fun p => toAsciiLowercase p.1).Nodup)
    (hSame : SameSigned params params') :
    signHttp hmacHex bodyMd5Hex method path body params' secret =
        signHttp hmacHex bodyMd5Hex method path body params secret ∧
      verifyHttp hmacHex bodyMd5Hex method path body params'
        (signHttp hmacHex bodyMd5Hex method path body params secret) secret = true := by
  have hSign : signHttp hmacHex bodyMd5Hex method path body params' secret =
      signHttp hmacHex bodyMd5Hex method path body params secret := by
    rw [signHttp, signHttp, canonicalHttpString_inj.mpr
      (canonicalQuery_of_perm body hSame.kept_perm (keptParams_nodup hDistinct))]
  exact ⟨hSign, beq_iff_eq.mpr hSign⟩

/-- The server sees the parameters in another order, one of them in capitals, with the
signature itself among them. -/
theorem reordered_signature_verifies :
    SameSigned [("b", "1"), ("a", "2")] [("A", "2"), ("auth_signature", "s"), ("b", "1")] ∧
      verifyHttp (fun _ message => message) (fun _ => "m") "GET" "/x" [1]
        [("A", "2"), ("auth_signature", "s"), ("b", "1")]
        (signHttp (fun _ message => message) (fun _ => "m") "GET" "/x" [1]
          [("b", "1"), ("a", "2")] "secret") "secret" = true :=
  have hSame : SameSigned [("b", "1"), ("a", "2")]
      [("A", "2"), ("auth_signature", "s"), ("b", "1")] :=
    .trans (.perm (.swap ("a", "2") ("b", "1") [])) (.trans
      (.respell [] [("b", "1")] "2" (by decide) (by decide))
      (.insert [("A", "2")] [("b", "1")] (by decide)))
  ⟨hSame, (signature_depends_on_signed _ _ "GET" "/x" [1] "secret" _ _ (by decide) hSame).2⟩

end Zatat
