import Zatat.Http.Sign

/-! # Queries and their encodings

A list of parameters can be written as a query in many ways. `parse_query` gives the list
back from each of them, and never reads past the end of what it is given.
-/

namespace Zatat.Http

open Delimited List Option

/-! ## Encodings -/

def HexDigit (c : Char) (n : Nat) : Prop :=
  n < 16 ∧ (c = "0123456789abcdef".toList.getD n ' ' ∨ c = "0123456789ABCDEF".toList.getD n ' ')

/-- The character may stand for itself; in a name `=` may not. -/
structure Literal (inName : Bool) (c : Char) : Prop where
  ascii : c.toNat < 128
  percent : c ≠ '%'
  plus : c ≠ '+'
  ampersand : c ≠ '&'
  space : c ≠ ' '
  equals : inName = true → c ≠ '='

inductive EncodesBytes (inName : Bool) : List UInt8 → List Char → Prop
  | nil : EncodesBytes inName [] []
  | literal {c : Char} {bytes : List UInt8} {chars : List Char} : Literal inName c →
      EncodesBytes inName bytes chars →
      EncodesBytes inName (UInt8.ofNat c.toNat :: bytes) (c :: chars)
  | escape {h l : Char} {m n : Nat} {bytes : List UInt8} {chars : List Char} : HexDigit h m →
      HexDigit l n → EncodesBytes inName bytes chars →
      EncodesBytes inName (UInt8.ofNat (m * 16 + n) :: bytes) ('%' :: h :: l :: chars)
  | plus {bytes : List UInt8} {chars : List Char} : EncodesBytes inName bytes chars →
      EncodesBytes inName (32 :: bytes) ('+' :: chars)

structure EncodesPair (p : String × String) (chars : List Char) : Prop where
  parts : ∃ name value, chars = name ++ '=' :: value ∧
    EncodesBytes true (Utf8.encode p.1) name ∧ EncodesBytes false (Utf8.encode p.2) value

/-- The pairs in their order, with empty segments anywhere between them. -/
def EncodesQuery (pairs : QueryParams) (query : String) : Prop :=
  ∃ segments : List (List Char), query.toList = List.intercalate ['&'] segments ∧
    List.Forall₂ EncodesPair pairs (segments.filter fun segment => !segment.isEmpty)

variable {c : Char} {n : Nat} {b : UInt8} {inName : Bool} {bytes : List UInt8} {chars : List Char}

/-! ## Decoding -/

theorem HexDigit.spec (h : HexDigit c n) :
    toDigit16 (UInt8.ofNat c.toNat) = some (UInt8.ofNat n) ∧ ∀ inName, Literal inName c := by
  have hAll : ((List.range 16).all fun n =>
      ["0123456789abcdef".toList.getD n ' ', "0123456789ABCDEF".toList.getD n ' '].all fun c =>
        toDigit16 (UInt8.ofNat c.toNat) == some (UInt8.ofNat n) && decide (c.toNat < 128) &&
          !List.contains ['%', '+', '&', ' ', '='] c) = true := by decide
  have hDigit := all_eq_true.mp (all_eq_true.mp hAll n (mem_range.mpr h.1)) c (by simpa using h.2)
  simp only [Bool.and_eq_true, beq_iff_eq, decide_eq_true_eq, Bool.not_eq_true',
    contains_eq_mem, decide_eq_false_iff_not, mem_cons, not_mem_nil, or_false,
    not_or] at hDigit
  obtain ⟨⟨hDigit, hAscii⟩, hPercent, hPlus, hAmpersand, hSpace, hEquals⟩ := hDigit
  exact ⟨hDigit, fun _ => ⟨hAscii, hPercent, hPlus, hAmpersand, hSpace, fun _ => hEquals⟩⟩

theorem escaped_eq_none (h : b ≠ 37) (rest : List UInt8) : escaped b rest = none := by
  rw [escaped.eq_def]
  split <;> simp [h]

theorem decodeBytes_of_ne (h : b ≠ 37) (rest : List UInt8) :
    decodeBytes 0 (b :: rest) = b :: decodeBytes 0 rest := by
  rw [decodeBytes, escaped_eq_none h]

theorem decodeBytes_escape {h l : Char} {m : Nat} (hHigh : HexDigit h m) (hLow : HexDigit l n)
    (rest : List UInt8) : decodeBytes 0 (37 :: UInt8.ofNat h.toNat :: UInt8.ofNat l.toNat :: rest) =
      UInt8.ofNat (m * 16 + n) :: decodeBytes 0 rest := by
  rw [decodeBytes, escaped, if_pos rfl, hHigh.spec.1, hLow.spec.1, UInt8.ofNat_add, UInt8.ofNat_mul]
  rfl

theorem Literal.ofNat_ne (h : Literal inName c) : UInt8.ofNat c.toNat ≠ 37 := by
  intro hEq
  have hNat : c.toNat % 256 = 37 := congrArg UInt8.toNat hEq
  rw [Nat.mod_eq_of_lt (h.ascii.trans (by decide))] at hNat
  exact h.percent (Char.toNat_inj.mp hNat)

theorem EncodesBytes.separate (h : EncodesBytes inName bytes chars) :
    ∀ c ∈ chars, c.toNat < 128 ∧ c ≠ '&' ∧ (inName = true → c ≠ '=') := by
  have hLiteral {c : Char} (hc : Literal inName c) :
      c.toNat < 128 ∧ c ≠ '&' ∧ (inName = true → c ≠ '=') := ⟨hc.ascii, hc.ampersand, hc.equals⟩
  induction h with
  | nil => exact nofun
  | literal hc _ ih => exact forall_mem_cons.mpr ⟨hLiteral hc, ih⟩
  | escape hHigh hLow _ ih =>
    refine forall_mem_cons.mpr ⟨⟨by decide, by decide, fun _ => by decide⟩, ?_⟩
    exact forall_mem_cons.mpr ⟨hLiteral (hHigh.spec.2 _),
      forall_mem_cons.mpr ⟨hLiteral (hLow.spec.2 _), ih⟩⟩
  | plus _ ih => exact forall_mem_cons.mpr ⟨⟨by decide, by decide, fun _ => by decide⟩, ih⟩

theorem EncodesBytes.decode (h : EncodesBytes inName bytes chars) :
    decodeBytes 0 ((chars.map fun c => if c = '+' then ' ' else c).map
      fun c => UInt8.ofNat c.toNat) = bytes := by
  induction h with
  | nil => rfl
  | literal hc _ ih =>
    rw [map_cons, map_cons, if_neg hc.plus, decodeBytes_of_ne hc.ofNat_ne, ih]
  | escape hHigh hLow _ ih =>
    simp only [map_cons, if_neg (hHigh.spec.2 true).plus, if_neg (hLow.spec.2 true).plus]
    exact (decodeBytes_escape hHigh hLow _).trans (congrArg _ ih)
  | plus _ ih =>
    rw [map_cons, map_cons, if_pos rfl]
    exact (decodeBytes_of_ne (by decide) _).trans (congrArg _ ih)

theorem pctDecode_of_encodes {text : String} (h : EncodesBytes inName (Utf8.encode text) chars) :
    pctDecode chars = text := by
  have hAscii : ∀ c ∈ chars.map (fun c => if c = '+' then ' ' else c), c.toNat < 128 := by
    intro c hc
    obtain ⟨c', hMem, rfl⟩ := mem_map.mp hc
    split
    · decide
    · exact (h.separate c' hMem).1
  rw [pctDecode, Utf8.encode_ofList_of_ascii hAscii, h.decode, Utf8.decode_encode]
  rfl

theorem EncodesPair.spec {p : String × String} (h : EncodesPair p chars) :
    parsePair chars = p ∧ '&' ∉ chars := by
  obtain ⟨name, value, rfl, hName, hValue⟩ := h.parts
  constructor
  · rw [parsePair, splitOnce_join fun hMem => (hName.separate _ hMem).2.2 rfl rfl]
    dsimp only [getD_some]
    rw [pctDecode_of_encodes hName, pctDecode_of_encodes hValue]
  · rw [mem_append, mem_cons, not_or, not_or]
    exact ⟨fun hMem => (hName.separate _ hMem).2.1 rfl, by decide,
      fun hMem => (hValue.separate _ hMem).2.1 rfl⟩

theorem parseQuery_of_encodes (path : String) {pairs : QueryParams} {query : String}
    (h : EncodesQuery pairs query) : parseQuery ⟨path, some query⟩ = pairs := by
  obtain ⟨segments, hQuery, hPairs⟩ := h
  have hMap (pairs : QueryParams) (parts : List (List Char))
      (h : List.Forall₂ EncodesPair pairs parts) :
      parts.map parsePair = pairs ∧ ∀ part ∈ parts, '&' ∉ part := by
    induction h with
    | nil => exact ⟨rfl, nofun⟩
    | cons hHead _ ih =>
      rw [map_cons, hHead.spec.1, ih.1]
      exact ⟨rfl, forall_mem_cons.mpr ⟨hHead.spec.2, ih.2⟩⟩
  obtain ⟨hParsed, hSeparate⟩ := hMap _ _ hPairs
  have hSplit : (query.toList.splitOn '&').filter (fun pair => !pair.isEmpty) =
      segments.filter fun segment => !segment.isEmpty := by
    rw [hQuery]
    cases segments with
    | nil => rfl
    | cons segment segments =>
      rw [splitOn_intercalate '&' ?_ (cons_ne_nil segment segments)]
      intro part hPart
      by_cases hEmpty : part.isEmpty = true
      · rw [isEmpty_iff.mp hEmpty]
        exact not_mem_nil
      · exact hSeparate part (mem_filter.mpr ⟨hPart, by simpa using hEmpty⟩)
  rw [parseQuery, ← hParsed, ← hSplit]

/-! ## Reading by index -/

/-- The loop of `pct_decode` from an index on. There is no result where a read is out of
bounds, which would be a panic. -/
def decodeFrom (bytes : List UInt8) (i : Nat) : Option (List UInt8) :=
  if i < bytes.length then
    bytes[i]?.bind fun b =>
      (if b = 37 ∧ i + 2 < bytes.length then
        bytes[i + 1]?.bind fun h => bytes[i + 2]?.map fun l =>
          (toDigit16 h).bind fun h => (toDigit16 l).map fun l => h * 16 + l
      else some none).bind fun byte =>
        match byte with
        | some byte => (decodeFrom bytes (i + 3)).map (byte :: ·)
        | none => (decodeFrom bytes (i + 1)).map (b :: ·)
  else some []
termination_by bytes.length - i

/-- `parse_query`, with reads that can be out of bounds. -/
def parseQueryChecked (uri : Uri) : Option QueryParams :=
  let decode (text : List Char) : Option String :=
    (decodeFrom (Utf8.encode (String.ofList (text.map fun c => if c = '+' then ' ' else c))) 0).map
      fun bytes => (Utf8.decode bytes).getD ""
  match uri.query with
  | none => some []
  | some q => ((q.toList.splitOn '&').filter fun pair => !pair.isEmpty).mapM fun pair =>
      let parts := (splitOnce '=' pair).getD (pair, [])
      (decode parts.1).bind fun k => (decode parts.2).map fun v => (k, v)

theorem decodeBytes_drop (n : Nat) (bytes : List UInt8) :
    decodeBytes n bytes = decodeBytes 0 (bytes.drop n) := by
  induction n generalizing bytes with
  | zero => rfl
  | succ n ih =>
    cases bytes with
    | nil => rfl
    | cons b bytes => rw [decodeBytes, ih, drop_succ_cons]

theorem decodeFrom_eq (bytes : List UInt8) (i : Nat) :
    decodeFrom bytes i = some (decodeBytes 0 (bytes.drop i)) := by
  fun_induction decodeFrom bytes i with
  | case1 i hMore ih ih' =>
    rw [List.getElem?_eq_getElem hMore, drop_eq_getElem_cons hMore, bind_some, decodeBytes]
    have hEscaped : (if bytes[i] = 37 ∧ i + 2 < bytes.length then
        bytes[i + 1]?.bind fun h => bytes[i + 2]?.map fun l =>
          (toDigit16 h).bind fun h => (toDigit16 l).map fun l => h * 16 + l
      else some none) = some (escaped bytes[i] (bytes.drop (i + 1))) := by
      by_cases hTwo : i + 2 < bytes.length
      · have hOne : i + 1 < bytes.length := by omega
        rw [List.getElem?_eq_getElem hOne, List.getElem?_eq_getElem hTwo,
          drop_eq_getElem_cons hOne, drop_eq_getElem_cons hTwo, escaped]
        by_cases hPercent : bytes[i] = 37 <;> simp [hPercent, hTwo]
      · have hShort : (bytes.drop (i + 1)).length < 2 := by
          rw [length_drop]
          omega
        rw [if_neg fun h => hTwo h.2, escaped.eq_def]
        split
        · rename_i hDrop
          rw [hDrop, length_cons, length_cons] at hShort
          omega
        · rfl
    rw [hEscaped, bind_some]
    cases escaped bytes[i] (bytes.drop (i + 1)) with
    | none =>
      dsimp only
      rw [ih', map_some]
    | some byte =>
      dsimp only
      rw [ih, map_some, decodeBytes_drop 2, drop_drop]
  | case2 i hEnd => rw [drop_eq_nil_of_le (not_lt.mp hEnd), decodeBytes]

theorem parseQueryChecked_eq (uri : Uri) : parseQueryChecked uri = some (parseQuery uri) := by
  unfold parseQueryChecked parseQuery
  cases uri.query with
  | none => rfl
  | some q =>
    simp only [decodeFrom_eq, map_some, bind_some, drop_zero]
    exact mapM_pure ..

/-- Every encoding of a list is parsed as the list, and no query makes the parser panic. -/
theorem parseQuery_inverts_encoding :
    (∀ path pairs query, EncodesQuery pairs query → parseQuery ⟨path, some query⟩ = pairs) ∧
      ∀ uri, parseQueryChecked uri = some (parseQuery uri) :=
  ⟨fun path _ _ h => parseQuery_of_encodes path h, parseQueryChecked_eq⟩

/-- A space written as `+`, an escape with a small and a capital digit, an empty segment. -/
theorem spaced_query_parsed : EncodesQuery [("a b", "é=")] "a+b=%c3%A9=&" ∧
    parseQuery ⟨"/x", some "a+b=%c3%A9=&"⟩ = [("a b", "é=")] := by
  have hEncodes : EncodesQuery [("a b", "é=")] "a+b=%c3%A9=&" := by
    refine ⟨["a+b=%c3%A9=".toList, []], by decide, ?_⟩
    refine .cons ⟨['a', '+', 'b'], ['%', 'c', '3', '%', 'A', '9', '='], by decide, ?_, ?_⟩ .nil
    · exact .literal (c := 'a') (by constructor <;> decide) (.plus
        (.literal (c := 'b') (by constructor <;> decide) .nil))
    · exact .escape (m := 12) (n := 3) ⟨by decide, .inl (by decide)⟩ ⟨by decide, .inl (by decide)⟩
        (.escape (m := 10) (n := 9) ⟨by decide, .inr (by decide)⟩ ⟨by decide, .inr (by decide)⟩
          (.literal (c := '=') (by constructor <;> decide) .nil))
  exact ⟨hEncodes, parseQuery_inverts_encoding.1 "/x" _ _ hEncodes⟩

end Zatat.Http
