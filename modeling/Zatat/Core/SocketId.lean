import Zatat.Lib.Delimited

/-! # Socket ids

An id is generated as two numbers joined by a point.
-/

namespace Zatat

open Delimited List

/-- `SocketId::generate`, given the two numbers drawn. -/
def generateSocketId (a b : Nat) : String := toString a ++ "." ++ toString b

def isDigits (text : List Char) : Bool := !text.isEmpty && text.all Char.isDigit

def isSocketId (id : String) : Bool :=
  match splitOnce '.' id.toList with
  | some (a, b) => isDigits a && isDigits b
  | none => false

theorem not_mem_of_isDigits {text : List Char} (h : isDigits text = true) {c : Char}
    (hc : c.isDigit = false) : c ∉ text := by
  intro hMem
  rw [isDigits, Bool.and_eq_true, all_eq_true] at h
  have hDigit := h.2 c hMem
  rw [hc] at hDigit
  cases hDigit

theorem colon_not_mem_of_isSocketId {id : String} (h : isSocketId id = true) : ':' ∉ id.toList := by
  rw [isSocketId] at h
  split at h
  · rename_i a b hSplit
    rw [Bool.and_eq_true] at h
    rw [(splitOnce_eq_some.mp hSplit).1, mem_append, mem_cons, not_or, not_or]
    exact ⟨not_mem_of_isDigits h.1 (by decide), by decide, not_mem_of_isDigits h.2 (by decide)⟩
  · cases h

theorem isDigits_toString (n : Nat) : isDigits (toString n).toList = true := by
  have hText : (toString n).toList = Nat.toDigits 10 n := String.toList_ofList
  rw [hText, isDigits, Bool.and_eq_true, Bool.not_eq_true', isEmpty_eq_false_iff, all_eq_true]
  exact ⟨Nat.toDigits_ne_nil, fun c hc =>
    Nat.isDigit_of_mem_toDigits (by decide) (by decide) hc⟩

theorem isSocketId_generateSocketId (a b : Nat) : isSocketId (generateSocketId a b) = true := by
  have hText : (generateSocketId a b).toList =
      (toString a).toList ++ '.' :: (toString b).toList := by
    rw [generateSocketId, String.toList_append, String.toList_append, append_assoc]
    rfl
  have hPoint : '.' ∉ (toString a).toList :=
    not_mem_of_isDigits (isDigits_toString a) (by decide)
  rw [isSocketId, hText, splitOnce_join hPoint]
  dsimp only
  rw [isDigits_toString, isDigits_toString]
  rfl

end Zatat
