import Mathlib.Data.String.Basic

/-! # Texts as UTF-8 bytes -/

namespace Utf8

def encode (text : String) : List UInt8 := text.toList.flatMap String.utf8EncodeChar

def decode (bytes : List UInt8) : Option String := String.fromUTF8? bytes.toByteArray

theorem decode_encode (text : String) : decode (encode text) = some text := by
  have hBytes : (encode text).toByteArray = text.toByteArray := String.utf8Encode_toList
  have hValid : ((encode text).toByteArray).IsValidUTF8 := ⟨text.toList, rfl⟩
  rw [decode, String.fromUTF8?, dif_pos hValid, Option.some.injEq, ← String.toByteArray_inj]
  exact hBytes

theorem encodeChar_of_ascii {c : Char} (h : c.toNat < 128) :
    String.utf8EncodeChar c = [UInt8.ofNat c.toNat] := by
  have hLow : c.val.toNat ≤ 127 := Nat.le_of_lt_succ h
  rw [String.utf8EncodeChar]
  exact if_pos hLow

theorem encode_ofList_of_ascii {chars : List Char} (h : ∀ c ∈ chars, c.toNat < 128) :
    encode (String.ofList chars) = chars.map fun c => UInt8.ofNat c.toNat := by
  rw [encode, String.toList_ofList]
  induction chars with
  | nil => rfl
  | cons c chars ih =>
    rw [List.flatMap_cons, List.map_cons, encodeChar_of_ascii (h c List.mem_cons_self),
      ih fun c' hc' => h c' (List.mem_cons_of_mem c hc')]
    rfl

end Utf8
